import Mathlib.Data.List.Infix
import Shashlik.LauncherExtraOptions
import Shashlik.LauncherVmParts

set_option autoImplicit false

/-!
# What the virtual machine is started with

No part of `startVm` reads or writes outside its arrays, whatever the properties are, and the VM
gets an option or none for every property but one, which is cut into several. The options of the
locale lie in arrays that have gone by then.
-/
namespace Shashlik.LauncherVmOptions
open LauncherArguments NamedArrays NamedArrays.Arrays SegmentPaths

/-! ### What the properties ask for -/

def isTrue (properties : Properties) (key : String) : Bool :=
  decide (valueOr properties key "" = "true".toList)

/-- The kernel's parameter counts where the property is neither true nor false. -/
def checksJni (properties : Properties) : Bool :=
  isTrue properties "dalvik.vm.checkjni" ||
    (decide (valueOr properties "dalvik.vm.checkjni" "" ≠ "false".toList) &&
      decide ((valueOr properties "ro.kernel.android.checkjni" "").head? = some '1'))

def executionMode (properties : Properties) : ExecutionMode :=
  let value := valueOr properties "dalvik.vm.execution-mode" ""
  if value = "int:portable".toList then .kEMIntPortable
  else if value = "int:fast".toList then .kEMIntFast
  else if value = "int:jit".toList then .kEMJitCompiler
  else .kEMDefault

def executionModeTexts : ExecutionMode → List String
  | .kEMIntPortable => ["-Xint:portable"]
  | .kEMIntFast => ["-Xint:fast"]
  | .kEMJitCompiler => ["-Xint:jit"]
  | .kEMDefault => []

def flagTexts (flags : List Char) (flag : String) (option : Char → Option String) : List String :=
  match strstr flag.toList flags with
  | none => []
  | some opc => (option (flags.getD (opc + 2) nul)).toList

def dexoptTexts (flags : List Char) : List String :=
  flagTexts flags "v=" verification ++ (flagTexts flags "o=" optimization ++
    (if "m=y".toList <:+: flags then ["-Xgenregmap", "-Xgc:precise"] else []))

def enableAssert (value : List Char) : List VmOption :=
  if value = "all".toList then [plain "-ea".toList] else optional "-ea:" value

def hooks : List VmOption :=
  [⟨some "exit".toList, some .runtimeExit⟩, ⟨some "vfprintf".toList, some .runtimeVfprintf⟩,
    ⟨some "sensitiveThread".toList, some .runtimeIsSensitiveThread⟩, plain "-verbose:gc".toList]

/-- All options after those of the command line. The two of the locale cannot be read. -/
def vmOptions (properties : Properties) : List VmOption :=
  [hooks,
    [plain ("-Xms".toList ++ valueOr properties "dalvik.vm.heapstartsize" "4m")],
    [plain ("-Xmx".toList ++ valueOr properties "dalvik.vm.heapsize" "16m")],
    literals ["-XX:mainThreadStackSize=24K"],
    optional "-Xjitcodecachesize:" (valueOr properties "dalvik.vm.jit.codecachesize" ""),
    optional "-XX:HeapGrowthLimit=" (valueOr properties "dalvik.vm.heapgrowthlimit" ""),
    optional "-XX:HeapMinFree=" (valueOr properties "dalvik.vm.heapminfree" ""),
    optional "-XX:HeapMaxFree=" (valueOr properties "dalvik.vm.heapmaxfree" ""),
    optional "-XX:HeapTargetUtilization="
      (valueOr properties "dalvik.vm.heaptargetutilization" ""),
    literals (if isTrue properties "ro.config.low_ram" then ["-XX:LowMemoryMode"] else []),
    literals (dexoptTexts (valueOr properties "dalvik.vm.dexopt-flags" "")),
    literals ["-agentlib:jdwp=transport=dt_android_adb,suspend=n,server=y"],
    literals (if checksJni properties then ["-Xcheck:jni", "-Xjnigreflimit:2000"] else []),
    optional "-Xlockprofthreshold:" (valueOr properties "dalvik.vm.lockprof.threshold" ""),
    optional "-Xjitop:" (valueOr properties "dalvik.vm.jit.op" ""),
    optional "-Xjitmethod:" (valueOr properties "dalvik.vm.jit.method" ""),
    literals (executionModeTexts (executionMode properties)),
    literals (if isTrue properties "dalvik.vm.check-dex-sum" then ["-Xcheckdexsum"] else []),
    literals (if isTrue properties "log.redirect-stdio" then ["-Xlog-stdio"] else []),
    enableAssert (valueOr properties "dalvik.vm.enableassertions" ""),
    optional "-Xjniopts:" (valueOr properties "dalvik.vm.jniopts" ""),
    optional "-Xstacktracefile:" (valueOr properties "dalvik.vm.stack-trace-file" ""),
    (segments ' ' (valueOr properties "dalvik.vm.extra-opts" "")).map plain,
    [{ text := none }, { text := none }],
    literals ["-Djava.io.tmpdir=/sdcard"]].flatten

/-- The variables when all but the options have been read. -/
structure Prepared (properties : Properties) (l : Locals) : Prop where
  checkJni : l.checkJni = checksJni properties
  checkDexSum : l.checkDexSum = isTrue properties "dalvik.vm.check-dex-sum"
  logStdio : l.logStdio = isTrue properties "log.redirect-stdio"
  executionMode : l.executionMode = executionMode properties
  enableAssert : Holds nul l.arrays .enableAssertBuf ("-ea:".toList.length + PROPERTY_VALUE_MAX)
    ("-ea:".toList ++ valueOr properties "dalvik.vm.enableassertions" "")
  jniOpts : Holds nul l.arrays .jniOptsBuf ("-Xjniopts:".toList.length + PROPERTY_VALUE_MAX)
    ("-Xjniopts:".toList ++ valueOr properties "dalvik.vm.jniopts" "")
  stackTraceFile : Holds nul l.arrays .stackTraceFileBuf PROPERTY_VALUE_MAX
    (valueOr properties "dalvik.vm.stack-trace-file" "")
  sized : ∀ a size, a ∉ [CharArray.enableAssertBuf, .jniOptsBuf, .stackTraceFileBuf] →
    entrySize a = some size → Sized l.arrays a size

/-! ### Literal options -/

section
variable {properties : Properties} {l₀ : Locals}

theorem strstr_isSome_iff (pattern text : List Char) :
    (strstr pattern text).isSome ↔ pattern <:+: text := by
  induction text with
  | nil =>
    rw [strstr, List.infix_nil]
    split
    · exact iff_of_true rfl ‹_›
    · exact iff_of_false Bool.false_ne_true ‹_›
  | cons c text ih =>
    rw [strstr, List.infix_cons_iff]
    split
    · exact iff_of_true rfl (Or.inl ‹_›)
    · rw [Option.isSome_map, ih]
      exact (or_iff_right ‹_›).symm

theorem strstr_eq_some {pattern text : List Char} {i : ℕ} (h : strstr pattern text = some i) :
    i + pattern.length ≤ text.length := by
  induction text generalizing i with
  | nil =>
    rw [strstr] at h
    split at h
    · rw [← Option.some.inj h, ‹pattern = []›]
      rfl
    · cases h
  | cons c text ih =>
    rw [strstr] at h
    split at h
    · rw [← Option.some.inj h, Nat.zero_add]
      exact List.IsPrefix.length_le ‹_›
    · obtain ⟨j, hj, rfl⟩ := Option.map_eq_some_iff.mp h
      have := ih hj
      rw [List.length_cons]
      omega

theorem dexoptFlag_eq {l : Locals} {size : ℕ} {flags : List Char}
    (h : Holds nul l.arrays .dexoptFlagsBuf size flags) {flag : String}
    (hflag : flag.toList.length = 2) (option : Char → Option String) :
    dexoptFlag flags flag option l = some { l with
      mOptions := l.mOptions ++ literalPointers (flagTexts flags flag option) } := by
  unfold dexoptFlag flagTexts
  cases hopc : strstr flag.toList flags with
  | none => simp [literalPointers]
  | some opc =>
    have hle := strstr_eq_some hopc
    dsimp only
    rw [h.read (by omega), Option.bind_eq_bind, Option.bind_some]
    cases option (flags.getD (opc + 2) nul) with
    | none => simp [literalPointers]
    | some val => rfl

theorem registerMap_eq (flags : List Char) (l : Locals) :
    registerMap flags l = { l with
      mOptions := l.mOptions ++ literalPointers
        (if "m=y".toList <:+: flags then ["-Xgenregmap", "-Xgc:precise"] else []) } := by
  rw [registerMap]
  cases hopc : strstr "m=y".toList flags with
  | none =>
    have hnot : ¬ "m=y".toList <:+: flags := by
      rw [← strstr_isSome_iff, hopc]
      exact Bool.false_ne_true
    rw [if_neg hnot]
    simp [literalPointers]
  | some opc =>
    have hinfix : "m=y".toList <:+: flags := by
      rw [← strstr_isSome_iff, hopc]
      rfl
    rw [if_pos hinfix, Locals.add, Locals.add]
    simp [literalPointers]

theorem lowRam_meets (l₀ : Locals) : Stage.Meets l₀ ⟨lowRamOption properties, [],
    literals (if isTrue properties "ro.config.low_ram" then ["-XX:LowMemoryMode"] else [])⟩ := by
  intro l _ hscratch _
  obtain ⟨s, hget, hvalue, hagree⟩ := propertyGet_sized properties "ro.config.low_ram" hscratch
    (Nat.le_refl _) short_empty
  refine ⟨s, _, adds_literals _ ?_ hagree hvalue.sized rfl⟩
  unfold isTrue
  dsimp only
  rw [lowRamOption, hget]
  simp only [Option.bind_eq_bind, Option.bind_some, Locals.text, hvalue.text (Nat.zero_le _),
    List.drop_zero, decide_eq_true_eq]
  split
  · rfl
  · simp [literalPointers]

theorem dexopt_meets (h : Prepared properties l₀) :
    Stage.Meets l₀ ⟨dexoptOptions properties, [.dexoptFlagsBuf],
      literals (dexoptTexts (valueOr properties "dalvik.vm.dexopt-flags" ""))⟩ := by
  intro l _ hscratch harrays
  obtain ⟨s, hget, hflags, hagree⟩ := propertyGet_sized properties "dalvik.vm.dexopt-flags"
    ((h.sized _ _ (by decide) rfl).congr (harrays _ List.mem_cons_self)) (Nat.le_refl _) short_empty
  obtain ⟨hnul, -⟩ := valueOr_short properties "dalvik.vm.dexopt-flags" short_empty
  refine ⟨s, _, adds_literals _ ?_ (hagree.mono (List.subset_cons_self _ _))
    (hscratch.agree hagree (by decide)) rfl⟩
  dsimp only
  generalize valueOr properties "dalvik.vm.dexopt-flags" "" = flags at hflags hnul ⊢
  rw [dexoptOptions, hget]
  have hfirst : flags.getD 0 nul = nul ↔ flags = [] := getD_nul_iff [] hnul
  simp only [Option.bind_eq_bind, Option.bind_some, hflags.read (Nat.zero_le _), ne_eq, hfirst]
  by_cases hempty : flags = []
  · rw [if_neg (not_not.mpr hempty), hempty]
    simp [dexoptTexts, flagTexts, strstr, literalPointers]
  · rw [if_pos hempty]
    simp only [Locals.text, hflags.text (Nat.zero_le _), List.drop_zero, Option.bind_some,
      dexoptFlag_eq (l := { l with arrays := s }) hflags (show "v=".toList.length = 2 from rfl)]
    rw [dexoptFlag_eq (l := { l with
      arrays := s
      mOptions := l.mOptions ++ literalPointers (flagTexts flags "v=" verification) })
      hflags (show "o=".toList.length = 2 from rfl), Option.bind_some, registerMap_eq]
    simp only [dexoptTexts, literalPointers, List.map_append, List.append_assoc]

theorem checkJni_meets (h : Prepared properties l₀) : Stage.Meets l₀ ⟨checkJniOptions, [],
    literals (if checksJni properties then ["-Xcheck:jni", "-Xjnigreflimit:2000"] else [])⟩ := by
  refine meets_literals _ fun l hflags => ?_
  have hcheck : l.checkJni = checksJni properties := (congrArg Prod.fst hflags).trans h.checkJni
  rw [← hcheck, checkJniOptions]
  by_cases hc : l.checkJni
  · rw [if_pos hc, if_pos hc, Locals.add, Locals.add]
    simp [literalPointers]
  · rw [if_neg hc, if_neg hc]
    simp [literalPointers]

theorem executionMode_meets (h : Prepared properties l₀) :
    Stage.Meets l₀ ⟨executionModeOption, [],
      literals (executionModeTexts (executionMode properties))⟩ := by
  refine meets_literals _ fun l hflags => ?_
  have hmode : l.executionMode = executionMode properties :=
    (congrArg (fun flags => flags.2.2.2) hflags).trans h.executionMode
  rw [← hmode]
  obtain ⟨arrays, mOptions, checkJni, checkDexSum, logStdio, mode⟩ := l
  cases mode with
  | kEMDefault => simp [executionModeOption, executionModeTexts, literalPointers]
  | kEMIntPortable => rfl
  | kEMIntFast => rfl
  | kEMJitCompiler => rfl

theorem checkDexSum_meets (h : Prepared properties l₀) : Stage.Meets l₀ ⟨checkDexSumOption, [],
    literals (if isTrue properties "dalvik.vm.check-dex-sum" then ["-Xcheckdexsum"] else [])⟩ := by
  refine meets_literals _ fun l hflags => ?_
  have hcheck : l.checkDexSum = isTrue properties "dalvik.vm.check-dex-sum" :=
    (congrArg (fun flags => flags.2.1) hflags).trans h.checkDexSum
  rw [← hcheck, checkDexSumOption]
  by_cases hc : l.checkDexSum
  · rw [if_pos hc, if_pos hc]
    rfl
  · rw [if_neg hc, if_neg hc]
    simp [literalPointers]

theorem logStdio_meets (h : Prepared properties l₀) : Stage.Meets l₀ ⟨logStdioOption, [],
    literals (if isTrue properties "log.redirect-stdio" then ["-Xlog-stdio"] else [])⟩ := by
  refine meets_literals _ fun l hflags => ?_
  have hlog : l.logStdio = isTrue properties "log.redirect-stdio" :=
    (congrArg (fun flags => flags.2.2.1) hflags).trans h.logStdio
  rw [← hlog, logStdioOption]
  by_cases hc : l.logStdio
  · rw [if_pos hc, if_pos hc]
    rfl
  · rw [if_neg hc, if_neg hc]
    simp [literalPointers]

/-! ### Options in arrays that were filled first -/

theorem enableAssert_meets (h : Prepared properties l₀) :
    Stage.Meets l₀ ⟨enableAssertOption, [.enableAssertBuf],
      enableAssert (valueOr properties "dalvik.vm.enableassertions" "")⟩ := by
  intro l _ hscratch harrays
  have hholds := h.enableAssert.congr (harrays _ List.mem_cons_self)
  obtain ⟨hnul, -⟩ := valueOr_short properties "dalvik.vm.enableassertions" short_empty
  generalize valueOr properties "dalvik.vm.enableassertions" "" = value at hholds hnul ⊢
  have hread : l.arrays.read .enableAssertBuf 4 = some (("-ea:".toList ++ value).getD 4 nul) :=
    hholds.read (by simp)
  have hfirst : ("-ea:".toList ++ value).getD 4 nul = nul ↔ value = [] :=
    getD_nul_iff "-ea:".toList hnul
  have htext : l.arrays.text nul .enableAssertBuf 4 = some value := hholds.text (by simp)
  have hpart : enableAssertOption l = if value = [] then some l else
      (acceptAll value l).bind (fun l => some (l.add (.array .enableAssertBuf 0))) := by
    rw [enableAssertOption, hread]
    simp only [Option.bind_eq_bind, Option.bind_some, ne_eq, hfirst, ite_not, Locals.text, htext]
  by_cases hall : value = "all".toList
  · obtain ⟨s, hcpy, hholds', hagree⟩ := strcpy_holds hholds (i := 3) (v := []) (by simp)
      (by simp) (by decide)
    refine ⟨s, _, adds_array ?_ (hagree.mono (List.subset_cons_self _ _))
      (hscratch.agree hagree (by decide)) List.mem_cons_self hholds' ?_⟩
    · dsimp only
      rw [hpart, if_neg (by rw [hall]; decide), acceptAll, if_pos hall, hcpy]
      rfl
    · dsimp only
      rw [enableAssert, if_pos hall]
      rfl
  · by_cases hempty : value = []
    · refine ⟨l.arrays, [], adds_nothing (hpart.trans (if_pos hempty)) (AgreeOff.refl _ _) hscratch
        ?_⟩
      dsimp only
      rw [enableAssert, if_neg hall, optional, if_pos hempty]
    · refine ⟨l.arrays, _, adds_array ?_ (AgreeOff.refl _ _) hscratch List.mem_cons_self hholds ?_⟩
      · dsimp only
        rw [hpart, if_neg hempty, acceptAll, if_neg hall]
        rfl
      · dsimp only
        rw [enableAssert, if_neg hall, optional, if_neg hempty]

theorem jniOpts_meets (h : Prepared properties l₀) :
    Stage.Meets l₀ ⟨jniOptsOption, [.jniOptsBuf],
      optional "-Xjniopts:" (valueOr properties "dalvik.vm.jniopts" "")⟩ := by
  intro l _ hscratch harrays
  have hholds := h.jniOpts.congr (harrays _ List.mem_cons_self)
  obtain ⟨hnul, -⟩ := valueOr_short properties "dalvik.vm.jniopts" short_empty
  have hpart := unlessEmpty_eq hholds hnul
  by_cases hempty : valueOr properties "dalvik.vm.jniopts" "" = []
  · rw [if_pos hempty] at hpart
    exact ⟨l.arrays, [], adds_nothing hpart (AgreeOff.refl _ _) hscratch (if_pos hempty)⟩
  · rw [if_neg hempty] at hpart
    exact ⟨l.arrays, _, adds_array hpart (AgreeOff.refl _ _) hscratch List.mem_cons_self hholds
      (if_neg hempty)⟩

theorem stackTraceFile_meets (h : Prepared properties l₀) :
    Stage.Meets l₀ ⟨stackTraceFileOption, [.stackTraceFileBuf, .stackTraceFile],
      optional "-Xstacktracefile:" (valueOr properties "dalvik.vm.stack-trace-file" "")⟩ := by
  intro l _ hscratch harrays
  have hfile := h.stackTraceFile.congr (harrays _ List.mem_cons_self)
  obtain ⟨hnul, -⟩ := valueOr_short properties "dalvik.vm.stack-trace-file" short_empty
  generalize valueOr properties "dalvik.vm.stack-trace-file" "" = value at hfile hnul ⊢
  have hread : l.arrays.read .stackTraceFileBuf 0 = some (value.getD 0 nul) :=
    hfile.read (Nat.zero_le _)
  have hfirst : value.getD 0 nul = nul ↔ value = [] := getD_nul_iff [] hnul
  have htext : l.arrays.text nul .stackTraceFileBuf 0 = some value := hfile.text (Nat.zero_le _)
  by_cases hempty : value = []
  · refine ⟨l.arrays, [], adds_nothing ?_ (AgreeOff.refl _ _) hscratch (if_pos hempty)⟩
    dsimp only
    rw [stackTraceFileOption, hread]
    rw [Option.bind_eq_bind, Option.bind_some, if_neg (not_not.mpr (hfirst.mpr hempty))]
  · set size := "-Xstacktracefile:".length + value.length + 1
    have hdeclare : AgreeOff [.stackTraceFile] l.arrays (l.arrays.declare .stackTraceFile size) :=
      agreeOff_update _ List.mem_cons_self _
    have hlength : size = "-Xstacktracefile:".toList.length + (value.length + 1) := rfl
    obtain ⟨s, hcpy, hholds, hagree⟩ := strcpy_sized (l := l.declare .stackTraceFile size)
      (t := "-Xstacktracefile:".toList) (declare_sized _ _ size) (by decide) (by omega)
    obtain ⟨s', hcat, hholds', hagree'⟩ := strcat_holds
      (l := { l.declare .stackTraceFile size with arrays := s }) hholds hnul (by omega)
    have hagree'' : AgreeOff [.stackTraceFile] l.arrays s' := (hdeclare.trans hagree).trans hagree'
    refine ⟨s', _, adds_array ?_ (hagree''.mono (by simp)) (hscratch.agree hagree'' (by decide))
      (List.mem_cons_of_mem _ List.mem_cons_self) hholds' (if_neg hempty)⟩
    dsimp only
    rw [stackTraceFileOption, hread]
    simp only [Option.bind_eq_bind, Option.bind_some, ne_eq, hfirst, hempty, not_false_eq_true,
      if_true, Locals.text, htext]
    change (strcpy .stackTraceFile 0 "-Xstacktracefile:".toList
      (l.declare .stackTraceFile size)).bind _ = _
    rw [hcpy, Option.bind_some, hcat]
    rfl

theorem extraOptions_meets (h : Prepared properties l₀) :
    Stage.Meets l₀ ⟨extraOptions properties, [.extraOptsBuf],
      (segments ' ' (valueOr properties "dalvik.vm.extra-opts" "")).map plain⟩ := by
  intro l _ hscratch harrays
  obtain ⟨s, hget, hvalue, hagree⟩ := propertyGet_sized properties "dalvik.vm.extra-opts"
    ((h.sized _ _ (by decide) rfl).congr (harrays _ List.mem_cons_self)) (Nat.le_refl _) short_empty
  obtain ⟨hnul, hlength⟩ := valueOr_short properties "dalvik.vm.extra-opts" short_empty
  generalize valueOr properties "dalvik.vm.extra-opts" "" = value at hvalue hnul hlength ⊢
  obtain ⟨-, rest, hs, -⟩ := hvalue
  obtain ⟨cells, starts, hparse, hstarts⟩ := parseExtraOpts_segments .extraOptsBuf
    PROPERTY_VALUE_MAX [] value rest { l with arrays := s } hs hnul hlength
  have hagree' : AgreeOff [.extraOptsBuf] l.arrays
      (Function.update s .extraOptsBuf (some ([] ++ cells))) :=
    hagree.trans (agreeOff_update _ List.mem_cons_self _)
  refine ⟨_, starts.map fun i => ⟨.array .extraOptsBuf i, none⟩,
    ⟨?_, hagree'.mono (by simp), hscratch.agree hagree' (by decide), ?_, ?_⟩⟩
  · dsimp only
    rw [extraOptions, hget]
    exact hparse
  · intro opt hopt a i hstring
    obtain ⟨j, -, rfl⟩ := List.mem_map.mp hopt
    cases hstring
    exact List.mem_cons_self
  · have hread := congrArg (List.map fun text => ({ text := text } : VmOption)) hstarts
    rw [List.map_map, List.map_map] at hread
    rw [List.map_map]
    refine Eq.trans (List.map_congr_left fun i _ => ?_) hread
    simp only [Function.comp_apply, JavaVMOption.read, string, Arrays.text, Function.update_self,
      Option.bind_some]

/-- The locale of the product counts where there is no persistent one. -/
def localeOf (properties : Properties) : List Char × List Char :=
  let language := valueOr properties "persist.sys.language" ""
  let region := valueOr properties "persist.sys.country" ""
  if language = [] ∧ region = [] then
    (valueOr properties "ro.product.locale.language" "en",
      valueOr properties "ro.product.locale.region" "US")
  else (language, region)

theorem readLocaleValues_eq (properties : Properties) {l : Locals}
    (hlang : Sized l.arrays .propLang PROPERTY_VALUE_MAX)
    (hregn : Sized l.arrays .propRegn PROPERTY_VALUE_MAX) : ∃ s,
    readLocaleValues properties l = some { l with arrays := s } ∧
      Holds nul s .propLang PROPERTY_VALUE_MAX (localeOf properties).1 ∧
      Holds nul s .propRegn PROPERTY_VALUE_MAX (localeOf properties).2 ∧
      AgreeOff [.propLang, .propRegn] l.arrays s := by
  obtain ⟨hnul, -⟩ := valueOr_short properties "persist.sys.language" short_empty
  obtain ⟨hnul', -⟩ := valueOr_short properties "persist.sys.country" short_empty
  obtain ⟨s₁, hget₁, hholds₁, hagree₁⟩ := propertyGet_sized properties "persist.sys.language" hlang
    (Nat.le_refl _) short_empty
  obtain ⟨s₂, hget₂, hholds₂, hagree₂⟩ := propertyGet_sized (l := { l with arrays := s₁ })
    properties "persist.sys.country" (hregn.agree hagree₁ (by decide)) (Nat.le_refl _)
    short_empty
  have hholds₁' := hholds₁.agree hagree₂ (by decide)
  have hagree : AgreeOff [.propLang, .propRegn] l.arrays s₂ :=
    (hagree₁.mono (by decide)).trans (hagree₂.mono (by decide))
  have hread : readLocaleValues properties l =
      if valueOr properties "persist.sys.language" "" = [] ∧
        valueOr properties "persist.sys.country" "" = [] then
          readProductLocale properties { l with arrays := s₂ }
      else some { l with arrays := s₂ } := by
    rw [readLocaleValues, hget₁]
    simp only [Option.bind_eq_bind, Option.bind_some, hget₂, hholds₁'.read (Nat.zero_le _),
      hholds₂.read (Nat.zero_le _), show ∀ value : List Char, nul ∉ value →
        (value.getD 0 nul = nul ↔ value = []) from fun _ h => getD_nul_iff [] h,
      hnul, hnul', not_false_eq_true]
  by_cases hempty : valueOr properties "persist.sys.language" "" = [] ∧
      valueOr properties "persist.sys.country" "" = []
  · obtain ⟨s₃, hget₃, hholds₃, hagree₃⟩ := propertyGet_sized (l := { l with arrays := s₂ })
      properties "ro.product.locale.language" hholds₁'.sized (Nat.le_refl _)
      (show Short "en" by decide)
    obtain ⟨s₄, hget₄, hholds₄, hagree₄⟩ := propertyGet_sized (l := { l with arrays := s₃ })
      properties "ro.product.locale.region" (hholds₂.sized.agree hagree₃ (by decide))
      (Nat.le_refl _) (show Short "US" by decide)
    refine ⟨s₄, ?_, ?_, ?_, (hagree.trans (hagree₃.mono (by decide))).trans
      (hagree₄.mono (by decide))⟩
    · rw [hread, if_pos hempty, readProductLocale, hget₃]
      exact hget₄
    · rw [localeOf, if_pos hempty]
      exact hholds₃.agree hagree₄ (by decide)
    · rw [localeOf, if_pos hempty]
      exact hholds₄
  · refine ⟨s₂, ?_, ?_, ?_, hagree⟩
    · rw [hread, if_neg hempty]
    · rw [localeOf, if_neg hempty]
      exact hholds₁'
    · rw [localeOf, if_neg hempty]
      exact hholds₂

theorem localeOf_ended (properties : Properties) :
    nul ∉ (localeOf properties).1 ∧ nul ∉ (localeOf properties).2 := by
  unfold localeOf
  dsimp only
  split
  · exact ⟨(valueOr_short properties _ (by decide)).1, (valueOr_short properties _ (by decide)).1⟩
  · exact ⟨(valueOr_short properties _ (by decide)).1, (valueOr_short properties _ (by decide)).1⟩

theorem readLocale_eq (properties : Properties) {l : Locals} {size size' : ℕ} {t t' : List Char}
    (hlanguage : Holds nul l.arrays .langOption size t) (hfits : t.length + 3 ≤ size)
    (hregion : Holds nul l.arrays .regionOption size' t') (hfits' : t'.length + 3 ≤ size') :
    ∃ s, readLocale properties .langOption .regionOption l = some { l with arrays := s } ∧
      Holds nul s .langOption size (t ++ (localeOf properties).1.take 2) ∧
      Holds nul s .regionOption size' (t' ++ (localeOf properties).2.take 2) ∧
      AgreeOff [.langOption, .regionOption, .propLang, .propRegn] l.arrays s := by
  obtain ⟨hnul, hnul'⟩ := localeOf_ended properties
  set s₀ := (l.arrays.declare .propLang PROPERTY_VALUE_MAX).declare .propRegn PROPERTY_VALUE_MAX
  have hdeclare : AgreeOff [.propLang, .propRegn] l.arrays s₀ :=
    (agreeOff_update _ (by decide) _).trans (agreeOff_update _ (by decide) _)
  have hlang : Sized s₀ .propLang PROPERTY_VALUE_MAX :=
    (declare_sized _ _ _).declare (by decide) _
  obtain ⟨s₁, hvalues, hpropLang, hpropRegn, hagree₁⟩ := readLocaleValues_eq
    properties (l := { l with arrays := s₀ }) hlang (declare_sized _ _ _)
  have hagree₁' := hdeclare.trans hagree₁
  have htake (value : List Char) : (value.take 2).length ≤ 2 := by
    rw [List.length_take]
    exact Nat.min_le_left _ _
  obtain ⟨s₂, hcat₂, hholds₂, hagree₂⟩ := strcat_holds (l := { l with arrays := s₁ })
    (v := (localeOf properties).1.take 2) (hlanguage.agree hagree₁' (by decide))
    (fun h => hnul (List.mem_of_mem_take h)) (by have := htake (localeOf properties).1; omega)
  obtain ⟨s₃, hcat₃, hholds₃, hagree₃⟩ := strcat_holds (l := { l with arrays := s₂ })
    (v := (localeOf properties).2.take 2)
    ((hregion.agree hagree₁' (by decide)).agree hagree₂ (by decide))
    (fun h => hnul' (List.mem_of_mem_take h)) (by have := htake (localeOf properties).2; omega)
  have hleave : AgreeOff [.propLang, .propRegn] s₃ ((s₃.leave .propLang).leave .propRegn) :=
    (agreeOff_update _ (by decide) _).trans (agreeOff_update _ (by decide) _)
  refine ⟨(s₃.leave .propLang).leave .propRegn, ?_,
    (hholds₂.agree hagree₃ (by decide)).agree hleave (by decide),
    hholds₃.agree hleave (by decide), ?_⟩
  · rw [readLocale]
    change (readLocaleValues properties { l with arrays := s₀ }).bind _ = _
    rw [hvalues]
    simp only [Option.bind_some, Option.bind_eq_bind, Locals.text, strncat,
      hpropLang.text (Nat.zero_le _), List.drop_zero, hcat₂,
      (hpropRegn.agree hagree₂ (by decide)).text (Nat.zero_le _), hcat₃]
    rfl
  · exact (((hagree₁'.mono (by decide)).trans (hagree₂.mono (by decide))).trans
      (hagree₃.mono (by decide))).trans (hleave.mono (by decide))

theorem locale_meets (l₀ : Locals) :
    Stage.Meets l₀ ⟨localeOptions properties, [.langOption, .regionOption, .propLang, .propRegn],
      [{ text := none }, { text := none }]⟩ := by
  intro l _ hscratch _
  set size := "-Duser.language=".length + 1 + 3
  set size' := "-Duser.region=".length + 1 + 3
  set s₀ := (l.arrays.declare .langOption size).declare .regionOption size'
  have hdeclare : AgreeOff [.langOption, .regionOption] l.arrays s₀ :=
    (agreeOff_update _ (by decide) _).trans (agreeOff_update _ (by decide) _)
  have hlang : Sized s₀ .langOption size :=
    (declare_sized _ _ _).declare (by decide) _
  obtain ⟨s₁, hcpy₁, hholds₁, hagree₁⟩ := strcpy_sized (l := { l with arrays := s₀ }) hlang
    (t := "-Duser.language=".toList) (by decide) (by decide)
  obtain ⟨s₂, hcpy₂, hholds₂, hagree₂⟩ := strcpy_sized (l := { l with arrays := s₁ })
    ((declare_sized _ _ _).agree hagree₁ (by decide)) (t := "-Duser.region=".toList) (by decide)
    (by decide)
  obtain ⟨s₃, hread, -, -, hagree₃⟩ := readLocale_eq properties
    (l := { l with arrays := s₂ }) (hholds₁.agree hagree₂ (by decide)) (by decide) hholds₂
    (by decide)
  have hleave : AgreeOff [.langOption, .regionOption] s₃
      ((s₃.leave .langOption).leave .regionOption) :=
    (agreeOff_update _ (by decide) _).trans (agreeOff_update _ (by decide) _)
  have hagree : AgreeOff [.langOption, .regionOption, .propLang, .propRegn] l.arrays
      ((s₃.leave .langOption).leave .regionOption) :=
    ((((hdeclare.mono (by decide)).trans (hagree₁.mono (by decide))).trans
      (hagree₂.mono (by decide))).trans hagree₃).trans (hleave.mono (by decide))
  refine ⟨_, [⟨.array .langOption 0, none⟩, ⟨.array .regionOption 0, none⟩], ⟨?_,
    hagree.mono (List.subset_cons_self _ _), hscratch.agree hagree (by decide), ?_, ?_⟩⟩
  · dsimp only
    rw [localeOptions]
    change (strcpy .langOption 0 "-Duser.language=".toList { l with arrays := s₀ }).bind _ = _
    rw [hcpy₁]
    simp only [Option.bind_some, Option.bind_eq_bind, hcpy₂, hread]
    simp only [Locals.add, Locals.leave, List.append_assoc]
    rfl
  · intro opt hopt a i hstring
    simp only [List.mem_cons, List.not_mem_nil, or_false] at hopt
    obtain rfl | rfl := hopt
    · cases hstring
      exact List.mem_cons_self
    · cases hstring
      exact List.mem_cons_of_mem _ List.mem_cons_self
  · rfl

/-! ### What is read first -/

theorem readScratch (properties : Properties) (key : String) {l : Locals}
    (hscratch : Sized l.arrays .propBuf PROPERTY_VALUE_MAX) :
    ∃ s, (∀ look : Locals → List Char → Option Locals,
        ((propertyGet properties key .propBuf 0 (some "") l).bind fun l =>
          (l.text .propBuf 0).bind fun value => look l value) =
            look { l with arrays := s } (valueOr properties key "")) ∧
      Holds nul s .propBuf PROPERTY_VALUE_MAX (valueOr properties key "") ∧
      AgreeOff [.propBuf] l.arrays s := by
  obtain ⟨s, hget, hvalue, hagree⟩ := propertyGet_sized properties key hscratch
    (Nat.le_refl _) short_empty
  refine ⟨s, fun look => ?_, hvalue, hagree⟩
  rw [hget]
  simp only [Option.bind_some, Locals.text, hvalue.text (Nat.zero_le _), List.drop_zero]

theorem readCheckJni_eq (properties : Properties) {l : Locals}
    (hscratch : Sized l.arrays .propBuf PROPERTY_VALUE_MAX) (hfalse : l.checkJni = false) :
    ∃ s, readCheckJni properties l =
        some { l with arrays := s, checkJni := checksJni properties } ∧
      AgreeOff [.propBuf] l.arrays s ∧ Sized s .propBuf PROPERTY_VALUE_MAX := by
  obtain ⟨arrays, mOptions, checkJni, checkDexSum, logStdio, mode⟩ := l
  dsimp only at hfalse
  obtain ⟨s, hread, hvalue, hagree⟩ := readScratch properties "dalvik.vm.checkjni" hscratch
  have hcheck := hread fun l value =>
    if value = "true".toList then some { l with checkJni := true }
    else if value ≠ "false".toList then
      (propertyGet properties "ro.kernel.android.checkjni" .propBuf 0 (some "") l).bind fun l =>
        (l.arrays.read .propBuf 0).bind fun c =>
          some (if c = '1' then { l with checkJni := true } else l)
    else some l
  unfold checksJni isTrue
  by_cases htrue : valueOr properties "dalvik.vm.checkjni" "" = "true".toList
  · refine ⟨s, hcheck.trans ?_, hagree, hvalue.sized⟩
    rw [if_pos htrue, decide_eq_true htrue, Bool.true_or]
  · rw [if_neg htrue] at hcheck
    rw [decide_eq_false htrue, Bool.false_or]
    by_cases hno : valueOr properties "dalvik.vm.checkjni" "" = "false".toList
    · refine ⟨s, hcheck.trans ?_, hagree, hvalue.sized⟩
      rw [if_neg (not_not.mpr hno), decide_eq_false (not_not.mpr hno), Bool.false_and, hfalse]
    · obtain ⟨s', hget', hvalue', hagree'⟩ := propertyGet_sized (l := ⟨s, mOptions, checkJni,
        checkDexSum, logStdio, mode⟩) properties "ro.kernel.android.checkjni" hvalue.sized
        (Nat.le_refl _) short_empty
      refine ⟨s', hcheck.trans ?_, hagree.trans hagree', hvalue'.sized⟩
      rw [if_pos hno, decide_eq_true hno, Bool.true_and, hget', hfalse]
      simp only [Option.bind_some, hvalue'.read (Nat.zero_le _)]
      cases valueOr properties "ro.kernel.android.checkjni" "" with
      | nil => rfl
      | cons c value =>
        by_cases hone : c = '1'
        · subst hone
          rfl
        · simp [hone]

theorem readExecutionMode_eq (properties : Properties) {l : Locals}
    (hscratch : Sized l.arrays .propBuf PROPERTY_VALUE_MAX)
    (hdefault : l.executionMode = .kEMDefault) : ∃ s, readExecutionMode properties l =
        some { l with arrays := s, executionMode := executionMode properties } ∧
      AgreeOff [.propBuf] l.arrays s ∧ Sized s .propBuf PROPERTY_VALUE_MAX := by
  obtain ⟨arrays, mOptions, checkJni, checkDexSum, logStdio, mode⟩ := l
  dsimp only at hdefault
  obtain ⟨s, hread, hvalue, hagree⟩ :=
    readScratch properties "dalvik.vm.execution-mode" hscratch
  refine ⟨s, (hread _).trans ?_, hagree, hvalue.sized⟩
  rw [executionMode, hdefault]
  dsimp only
  split_ifs <;> rfl

theorem readCheckDexSum_eq (properties : Properties) {l : Locals}
    (hscratch : Sized l.arrays .propBuf PROPERTY_VALUE_MAX) (hfalse : l.checkDexSum = false) :
    ∃ s, readCheckDexSum properties l =
        some { l with arrays := s, checkDexSum := isTrue properties "dalvik.vm.check-dex-sum" } ∧
      AgreeOff [.propBuf] l.arrays s ∧ Sized s .propBuf PROPERTY_VALUE_MAX := by
  obtain ⟨arrays, mOptions, checkJni, checkDexSum, logStdio, mode⟩ := l
  dsimp only at hfalse
  obtain ⟨s, hread, hvalue, hagree⟩ := readScratch properties "dalvik.vm.check-dex-sum" hscratch
  refine ⟨s, (hread _).trans ?_, hagree, hvalue.sized⟩
  rw [isTrue, hfalse]
  dsimp only
  split_ifs with htrue
  · rw [decide_eq_true htrue]
  · rw [decide_eq_false htrue]

theorem readLogStdio_eq (properties : Properties) {l : Locals}
    (hscratch : Sized l.arrays .propBuf PROPERTY_VALUE_MAX) (hfalse : l.logStdio = false) :
    ∃ s, readLogStdio properties l =
        some { l with arrays := s, logStdio := isTrue properties "log.redirect-stdio" } ∧
      AgreeOff [.propBuf] l.arrays s ∧ Sized s .propBuf PROPERTY_VALUE_MAX := by
  obtain ⟨arrays, mOptions, checkJni, checkDexSum, logStdio, mode⟩ := l
  dsimp only at hfalse
  obtain ⟨s, hread, hvalue, hagree⟩ := readScratch properties "log.redirect-stdio" hscratch
  refine ⟨s, (hread _).trans ?_, hagree, hvalue.sized⟩
  rw [isTrue, hfalse]
  dsimp only
  split_ifs with htrue
  · rw [decide_eq_true htrue]
  · rw [decide_eq_false htrue]

theorem entry_sized {mOptions : List JavaVMOption} {a : CharArray} {size : ℕ}
    (h : entrySize a = some size) : Sized (entry mOptions).arrays a size := by
  refine ⟨List.replicate size none, ?_, List.length_replicate⟩
  change (entrySize a).map _ = _
  rw [h]
  rfl

theorem readParts_prepare (properties : Properties) (mOptions : List JavaVMOption) :
    ∃ l, runParts (readParts properties) (entry mOptions) = some l ∧ l.mOptions = mOptions ∧
      Prepared properties l := by
  obtain ⟨s₁, hpart₁, hagree₁, hscratch₁⟩ := readCheckJni_eq properties
    (l := entry mOptions) (entry_sized rfl) rfl
  obtain ⟨s₂, hpart₂, hagree₂, hscratch₂⟩ := readExecutionMode_eq properties
    (l := { entry mOptions with arrays := s₁, checkJni := checksJni properties }) hscratch₁ rfl
  have hagree₂' := hagree₁.trans hagree₂
  obtain ⟨s₃, hpart₃, hfile, hagree₃⟩ := propertyGet_sized (l := { entry mOptions with
    arrays := s₂, checkJni := checksJni properties, executionMode := executionMode properties })
    properties "dalvik.vm.stack-trace-file"
    ((entry_sized (a := .stackTraceFileBuf) rfl).agree hagree₂' (by decide))
    (Nat.le_refl _) short_empty
  obtain ⟨s₄, hpart₄, hagree₄, hscratch₄⟩ := readCheckDexSum_eq properties
    (l := { entry mOptions with
      arrays := s₃, checkJni := checksJni properties, executionMode := executionMode properties })
    (hscratch₂.agree hagree₃ (by decide)) rfl
  obtain ⟨s₅, hpart₅, hagree₅, hscratch₅⟩ := readLogStdio_eq properties
    (l := { entry mOptions with
      arrays := s₄, checkJni := checksJni properties, executionMode := executionMode properties
      checkDexSum := isTrue properties "dalvik.vm.check-dex-sum" }) hscratch₄ rfl
  have hagree₅' : AgreeOff [.propBuf, .stackTraceFileBuf] (entry mOptions).arrays s₅ :=
    (((hagree₂'.mono (by decide)).trans (hagree₃.mono (by decide))).trans
      (hagree₄.mono (by decide))).trans (hagree₅.mono (by decide))
  set l₅ : Locals := { entry mOptions with
    arrays := s₅, checkJni := checksJni properties, executionMode := executionMode properties
    checkDexSum := isTrue properties "dalvik.vm.check-dex-sum"
    logStdio := isTrue properties "log.redirect-stdio" }
  obtain ⟨s₆, hpart₆, hassert, hagree₆⟩ := namedValue_sized (l := l₅) properties
    "dalvik.vm.enableassertions"
    ((entry_sized (a := .enableAssertBuf) rfl).agree hagree₅' (by decide))
    (show nul ∉ "-ea:".toList by decide) (Nat.le_refl _)
    (show Short ((some "").getD "") from short_empty)
  obtain ⟨s₇, hpart₇, hjni, hagree₇⟩ := namedValue_sized (l := { l₅ with arrays := s₆ }) properties
    "dalvik.vm.jniopts"
    (((entry_sized (a := .jniOptsBuf) rfl).agree hagree₅' (by decide)).agree hagree₆ (by decide))
    (show nul ∉ "-Xjniopts:".toList by decide) (Nat.le_refl _)
    (show Short ((some "").getD "") from short_empty)
  refine ⟨{ l₅ with arrays := s₇ }, ?_, rfl, ?_⟩
  · simp only [runParts, readParts, List.foldlM_cons, List.foldlM_nil, Option.bind_eq_bind, hpart₁,
      hpart₂, readStackTraceFile, hpart₃, hpart₄, hpart₅, Option.bind_some]
    rw [show readEnableAssert properties l₅ = _ from hpart₆, Option.bind_some,
      show readJniOpts properties { l₅ with arrays := s₆ } = _ from hpart₇]
    rfl
  · have hagree₇' : AgreeOff [.propBuf, .enableAssertBuf, .jniOptsBuf, .stackTraceFileBuf]
        (entry mOptions).arrays s₇ :=
      ((hagree₅'.mono (by decide)).trans (hagree₆.mono (by decide))).trans
        (hagree₇.mono (by decide))
    have hfile' := (hfile.agree hagree₄ (by decide)).agree hagree₅ (by decide)
    refine ⟨rfl, rfl, rfl, rfl, hassert.agree hagree₇ (by decide), hjni,
      (hfile'.agree hagree₆ (by decide)).agree hagree₇ (by decide), ?_⟩
    intro a size ha hsize
    by_cases hpropBuf : a = .propBuf
    · subst hpropBuf
      rw [← Option.some.inj hsize]
      exact (hscratch₅.agree hagree₆ (by decide)).agree hagree₇ (by decide)
    · refine (entry_sized hsize).agree hagree₇' fun hmem => ?_
      exact (List.mem_cons.mp hmem).elim hpropBuf ha

/-! ### The whole function -/

theorem hookOptions_meets (l₀ : Locals) : Stage.Meets l₀ ⟨hookOptions, [], hooks⟩ := by
  intro l _ hscratch _
  refine ⟨l.arrays, [⟨.literal "exit", some .runtimeExit⟩,
    ⟨.literal "vfprintf", some .runtimeVfprintf⟩,
    ⟨.literal "sensitiveThread", some .runtimeIsSensitiveThread⟩,
    ⟨.literal "-verbose:gc", none⟩], ⟨?_, AgreeOff.refl _ _, hscratch, ?_, rfl⟩⟩
  · simp [hookOptions, Locals.addHook, Locals.add]
  · simp

theorem literalOption_meets (l₀ : Locals) (text : String) :
    Stage.Meets l₀ ⟨literalOption text, [], literals [text]⟩ :=
  meets_literals [text] fun _ _ => rfl

def optionStages (properties : Properties) : List Stage :=
  [⟨hookOptions, [], hooks⟩,
    ⟨heapstartsizeOption properties, [.heapstartsizeOptsBuf],
      [plain ("-Xms".toList ++ valueOr properties "dalvik.vm.heapstartsize" "4m")]⟩,
    ⟨heapsizeOption properties, [.heapsizeOptsBuf],
      [plain ("-Xmx".toList ++ valueOr properties "dalvik.vm.heapsize" "16m")]⟩,
    ⟨literalOption "-XX:mainThreadStackSize=24K", [],
      literals ["-XX:mainThreadStackSize=24K"]⟩,
    ⟨jitcodecachesizeOption properties, [.jitcodecachesizeOptsBuf],
      optional "-Xjitcodecachesize:" (valueOr properties "dalvik.vm.jit.codecachesize" "")⟩,
    ⟨heapgrowthlimitOption properties, [.heapgrowthlimitOptsBuf],
      optional "-XX:HeapGrowthLimit=" (valueOr properties "dalvik.vm.heapgrowthlimit" "")⟩,
    ⟨heapminfreeOption properties, [.heapminfreeOptsBuf],
      optional "-XX:HeapMinFree=" (valueOr properties "dalvik.vm.heapminfree" "")⟩,
    ⟨heapmaxfreeOption properties, [.heapmaxfreeOptsBuf],
      optional "-XX:HeapMaxFree=" (valueOr properties "dalvik.vm.heapmaxfree" "")⟩,
    ⟨heaptargetutilizationOption properties, [.heaptargetutilizationOptsBuf],
      optional "-XX:HeapTargetUtilization="
        (valueOr properties "dalvik.vm.heaptargetutilization" "")⟩,
    ⟨lowRamOption properties, [],
      literals (if isTrue properties "ro.config.low_ram" then ["-XX:LowMemoryMode"] else [])⟩,
    ⟨dexoptOptions properties, [.dexoptFlagsBuf],
      literals (dexoptTexts (valueOr properties "dalvik.vm.dexopt-flags" ""))⟩,
    ⟨literalOption "-agentlib:jdwp=transport=dt_android_adb,suspend=n,server=y", [],
      literals ["-agentlib:jdwp=transport=dt_android_adb,suspend=n,server=y"]⟩,
    ⟨checkJniOptions, [],
      literals (if checksJni properties then ["-Xcheck:jni", "-Xjnigreflimit:2000"] else [])⟩,
    ⟨lockProfThresholdOption properties, [.lockProfThresholdBuf],
      optional "-Xlockprofthreshold:" (valueOr properties "dalvik.vm.lockprof.threshold" "")⟩,
    ⟨jitOpOption properties, [.jitOpBuf],
      optional "-Xjitop:" (valueOr properties "dalvik.vm.jit.op" "")⟩,
    ⟨jitMethodOption properties, [.jitMethodBuf],
      optional "-Xjitmethod:" (valueOr properties "dalvik.vm.jit.method" "")⟩,
    ⟨executionModeOption, [], literals (executionModeTexts (executionMode properties))⟩,
    ⟨checkDexSumOption, [], literals
      (if isTrue properties "dalvik.vm.check-dex-sum" then ["-Xcheckdexsum"] else [])⟩,
    ⟨logStdioOption, [],
      literals (if isTrue properties "log.redirect-stdio" then ["-Xlog-stdio"] else [])⟩,
    ⟨enableAssertOption, [.enableAssertBuf],
      enableAssert (valueOr properties "dalvik.vm.enableassertions" "")⟩,
    ⟨jniOptsOption, [.jniOptsBuf],
      optional "-Xjniopts:" (valueOr properties "dalvik.vm.jniopts" "")⟩,
    ⟨stackTraceFileOption, [.stackTraceFileBuf, .stackTraceFile],
      optional "-Xstacktracefile:" (valueOr properties "dalvik.vm.stack-trace-file" "")⟩,
    ⟨extraOptions properties, [.extraOptsBuf],
      (segments ' ' (valueOr properties "dalvik.vm.extra-opts" "")).map plain⟩,
    ⟨localeOptions properties, [.langOption, .regionOption, .propLang, .propRegn],
      [{ text := none }, { text := none }]⟩,
    ⟨literalOption "-Djava.io.tmpdir=/sdcard", [], literals ["-Djava.io.tmpdir=/sdcard"]⟩]

theorem optionStages_part (properties : Properties) :
    (optionStages properties).map Stage.part = optionParts properties := rfl

theorem optionStages_own (properties : Properties) :
    (optionStages properties).flatMap Stage.own = [.heapstartsizeOptsBuf, .heapsizeOptsBuf,
      .jitcodecachesizeOptsBuf, .heapgrowthlimitOptsBuf, .heapminfreeOptsBuf,
      .heapmaxfreeOptsBuf, .heaptargetutilizationOptsBuf, .dexoptFlagsBuf,
      .lockProfThresholdBuf, .jitOpBuf, .jitMethodBuf, .enableAssertBuf, .jniOptsBuf,
      .stackTraceFileBuf, .stackTraceFile, .extraOptsBuf, .langOption, .regionOption,
      .propLang, .propRegn] := by
  simp only [optionStages, List.flatMap_cons, List.flatMap_nil, List.append_nil, List.cons_append,
    List.nil_append]

theorem optionStages_new (properties : Properties) :
    (optionStages properties).flatMap Stage.new = vmOptions properties := rfl

theorem optionStages_meet (h : Prepared properties l₀) :
    ∀ st ∈ optionStages properties, st.Meets l₀ := by
  simp only [optionStages, List.forall_mem_cons]
  refine ⟨hookOptions_meets l₀,
    meets_namedValue properties (h.sized _ _ (by decide) rfl) (by decide) (by decide)
      (show Short ((some "4m").getD "") by decide) fun _ => rfl,
    meets_namedValue properties (h.sized _ _ (by decide) rfl) (by decide) (by decide)
      (show Short ((some "16m").getD "") by decide) fun _ => rfl,
    literalOption_meets l₀ _, ?_, ?_, ?_, ?_, ?_, lowRam_meets l₀, dexopt_meets h,
    literalOption_meets l₀ _, checkJni_meets h, meets_joinedOption l₀ properties _ rfl (by decide)
      (by decide), meets_joinedOption l₀ properties _ rfl (by decide) (by decide),
    meets_joinedOption l₀ properties _ rfl (by decide) (by decide), executionMode_meets h,
    checkDexSum_meets h, logStdio_meets h, enableAssert_meets h, jniOpts_meets h,
    stackTraceFile_meets h, extraOptions_meets h, locale_meets l₀, literalOption_meets l₀ _,
    List.forall_mem_nil _⟩
  · exact meets_optionalValue properties (h.sized _ _ (by decide) rfl) (by decide) (by decide)
      (show Short ((none : Option String).getD "") by decide)
  · exact meets_optionalValue properties (h.sized _ _ (by decide) rfl) (by decide) (by decide)
      short_empty
  · exact meets_optionalValue properties (h.sized _ _ (by decide) rfl) (by decide) (by decide)
      short_empty
  · exact meets_optionalValue properties (h.sized _ _ (by decide) rfl) (by decide) (by decide)
      short_empty
  · exact meets_optionalValue properties (h.sized _ _ (by decide) rfl) (by decide) (by decide)
      short_empty

end

def startOptions (properties : Properties) (vmArguments : List Argument) : List VmOption :=
  vmArguments.map (fun arg => plain arg.chars) ++ vmOptions properties

theorem startVm_eq (properties : Properties) (createJavaVM : List VmOption → ℤ)
    (vmArguments : List Argument) (options : List VmOption)
    (h : options = startOptions properties vmArguments) :
    startVm properties createJavaVM vmArguments =
      some (if createJavaVM options < 0 then -1 else 0, options) := by
  obtain ⟨l₀, hread, hoptions, hprepared⟩ := readParts_prepare properties
    (vmArguments.map fun arg => ⟨.argument arg, none⟩)
  obtain ⟨l, hrun, hnew⟩ := runParts_stages (optionStages properties)
    (optionStages_meet hprepared) (by
      rw [optionStages_own]
      decide) l₀ rfl (hprepared.sized _ _ (by decide) rfl) (fun _ _ => rfl) (by
      intro opt hopt a i hstring
      rw [hoptions] at hopt
      obtain ⟨arg, -, rfl⟩ := List.mem_map.mp hopt
      cases hstring)
  have hoptions' : l.read = options := by
    rw [hnew, Locals.read, hoptions, List.map_map, optionStages_new, h]
    rfl
  rw [optionStages_part] at hrun
  simp only [startVm, hread, Option.bind_eq_bind, Option.bind_some, hrun, hoptions']

/-- Whatever the properties are, `startVm` reads and writes nothing outside its arrays, and the VM
    gets the options of the command line and then those that the properties ask for. -/
theorem startVm_options (properties : Properties) (createJavaVM : List VmOption → ℤ)
    (vmArguments : List Argument) : startVm properties createJavaVM vmArguments =
      some (if createJavaVM (startOptions properties vmArguments) < 0 then -1 else 0,
        startOptions properties vmArguments) :=
  startVm_eq properties createJavaVM vmArguments _ rfl

end Shashlik.LauncherVmOptions
