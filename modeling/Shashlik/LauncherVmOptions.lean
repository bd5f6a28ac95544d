import Shashlik.LauncherArguments
import Shashlik.Library.NamedArrays
import Shashlik.Library.SegmentPaths

set_option autoImplicit false

/-!
# The options of the virtual machine

`startVm` writes the options that system properties ask for into arrays of its own, cuts one of
the arrays up into further options, and hands the VM a vector of pointers into all of them. A
`Char` stands for one `char`.
-/
namespace Shashlik.LauncherVmOptions
open LauncherArguments NamedArrays SegmentPaths

def PROPERTY_VALUE_MAX : ℕ := 92

structure PropertyValue where
  text : Argument
  short : text.chars.length < PROPERTY_VALUE_MAX

/-- What the property service answers, if it does. The value of a property that is not set is
    empty. -/
abbrev Properties := String → Option PropertyValue

/-- The arrays of `startVm` and `readLocale`, and the memory that `startVm` allocates. -/
inductive CharArray where
  | propBuf
  | stackTraceFileBuf
  | dexoptFlagsBuf
  | enableAssertBuf
  | jniOptsBuf
  | heapstartsizeOptsBuf
  | heapsizeOptsBuf
  | heapgrowthlimitOptsBuf
  | heapminfreeOptsBuf
  | heapmaxfreeOptsBuf
  | heaptargetutilizationOptsBuf
  | jitcodecachesizeOptsBuf
  | extraOptsBuf
  | lockProfThresholdBuf
  | jitOpBuf
  | jitMethodBuf
  | stackTraceFile
  | langOption
  | regionOption
  | propLang
  | propRegn
  deriving DecidableEq

/-- The arrays of the outermost block, which `startVm` declares first, and their sizes. -/
def entrySize : CharArray → Option ℕ
  | .propBuf => some PROPERTY_VALUE_MAX
  | .stackTraceFileBuf => some PROPERTY_VALUE_MAX
  | .dexoptFlagsBuf => some PROPERTY_VALUE_MAX
  | .enableAssertBuf => some ("-ea:".length + PROPERTY_VALUE_MAX)
  | .jniOptsBuf => some ("-Xjniopts:".length + PROPERTY_VALUE_MAX)
  | .heapstartsizeOptsBuf => some ("-Xms".length + PROPERTY_VALUE_MAX)
  | .heapsizeOptsBuf => some ("-Xmx".length + PROPERTY_VALUE_MAX)
  | .heapgrowthlimitOptsBuf => some ("-XX:HeapGrowthLimit=".length + PROPERTY_VALUE_MAX)
  | .heapminfreeOptsBuf => some ("-XX:HeapMinFree=".length + PROPERTY_VALUE_MAX)
  | .heapmaxfreeOptsBuf => some ("-XX:HeapMaxFree=".length + PROPERTY_VALUE_MAX)
  | .heaptargetutilizationOptsBuf => some ("-XX:HeapTargetUtilization=".length + PROPERTY_VALUE_MAX)
  | .jitcodecachesizeOptsBuf => some ("-Xjitcodecachesize:".length + PROPERTY_VALUE_MAX)
  | .extraOptsBuf => some PROPERTY_VALUE_MAX
  | _ => none

inductive CharPointer where
  | argument (arg : Argument)
  | literal (text : String)
  | array (a : CharArray) (i : ℕ)

inductive Hook where
  | runtimeExit
  | runtimeVfprintf
  | runtimeIsSensitiveThread
  deriving DecidableEq

structure JavaVMOption where
  optionString : CharPointer
  extraInfo : Option Hook := none

inductive ExecutionMode where
  | kEMDefault
  | kEMIntPortable
  | kEMIntFast
  | kEMJitCompiler
  deriving DecidableEq

structure Locals where
  arrays : Arrays CharArray Char
  mOptions : List JavaVMOption
  checkJni : Bool := false
  checkDexSum : Bool := false
  logStdio : Bool := false
  executionMode : ExecutionMode := .kEMDefault

namespace Locals

def declare (l : Locals) (a : CharArray) (size : ℕ) : Locals :=
  { l with arrays := l.arrays.declare a size }

def leave (l : Locals) (a : CharArray) : Locals := { l with arrays := l.arrays.leave a }

def text (l : Locals) (a : CharArray) (i : ℕ) : Option (List Char) := l.arrays.text nul a i

def add (l : Locals) (p : CharPointer) : Locals := { l with mOptions := l.mOptions ++ [⟨p, none⟩] }

def addHook (l : Locals) (p : CharPointer) (hook : Hook) : Locals :=
  { l with mOptions := l.mOptions ++ [⟨p, some hook⟩] }

end Locals

/-! ### Functions of the C library -/

def strcpy (a : CharArray) (i : ℕ) (text : List Char) (l : Locals) : Option Locals :=
  (l.arrays.write a i (text ++ [nul])).map fun arrays => { l with arrays := arrays }

def strcat (a : CharArray) (text : List Char) (l : Locals) : Option Locals := do
  let old ← l.text a 0
  strcpy a old.length text l

def strncat (a : CharArray) (text : List Char) (n : ℕ) (l : Locals) : Option Locals :=
  strcat a (text.take n) l

def strstr (pattern : List Char) : List Char → Option ℕ
  | [] => if pattern = [] then some 0 else none
  | c :: text =>
    if pattern <+: c :: text then some 0 else (strstr pattern text).map (fun i => i + 1)

/-- The caller leaves room for the longest value. -/
def propertyGet (properties : Properties) (key : String) (a : CharArray) (i : ℕ)
    (defaultValue : Option String) (l : Locals) : Option Locals := do
  let cells ← l.arrays a
  if cells.length < i + PROPERTY_VALUE_MAX then none
  else
    match properties key with
    | some value =>
      if value.text.chars = [] then strcpy a i (defaultValue.getD "").toList l
      else strcpy a i value.text.chars l
    | none =>
      match defaultValue with
      | some text => strcpy a i text.toList l
      | none => some l

/-! ### What is read first -/

def readCheckJni (properties : Properties) (l : Locals) : Option Locals := do
  let l ← propertyGet properties "dalvik.vm.checkjni" .propBuf 0 (some "") l
  let value ← l.text .propBuf 0
  if value = "true".toList then some { l with checkJni := true }
  else if value ≠ "false".toList then do
    let l ← propertyGet properties "ro.kernel.android.checkjni" .propBuf 0 (some "") l
    let c ← l.arrays.read .propBuf 0
    some (if c = '1' then { l with checkJni := true } else l)
  else some l

def readExecutionMode (properties : Properties) (l : Locals) : Option Locals := do
  let l ← propertyGet properties "dalvik.vm.execution-mode" .propBuf 0 (some "") l
  let value ← l.text .propBuf 0
  some (if value = "int:portable".toList then { l with executionMode := .kEMIntPortable }
    else if value = "int:fast".toList then { l with executionMode := .kEMIntFast }
    else if value = "int:jit".toList then { l with executionMode := .kEMJitCompiler }
    else l)

def readStackTraceFile (properties : Properties) (l : Locals) : Option Locals :=
  propertyGet properties "dalvik.vm.stack-trace-file" .stackTraceFileBuf 0 (some "") l

def readCheckDexSum (properties : Properties) (l : Locals) : Option Locals := do
  let l ← propertyGet properties "dalvik.vm.check-dex-sum" .propBuf 0 (some "") l
  let value ← l.text .propBuf 0
  some (if value = "true".toList then { l with checkDexSum := true } else l)

def readLogStdio (properties : Properties) (l : Locals) : Option Locals := do
  let l ← propertyGet properties "log.redirect-stdio" .propBuf 0 (some "") l
  let value ← l.text .propBuf 0
  some (if value = "true".toList then { l with logStdio := true } else l)

def namedValue (properties : Properties) (a : CharArray) (name key : String) (i : ℕ)
    (defaultValue : Option String) (l : Locals) : Option Locals := do
  let l ← strcpy a 0 name.toList l
  propertyGet properties key a i defaultValue l

def readEnableAssert (properties : Properties) : Locals → Option Locals :=
  namedValue properties .enableAssertBuf "-ea:" "dalvik.vm.enableassertions" 4 (some "")

def readJniOpts (properties : Properties) : Locals → Option Locals :=
  namedValue properties .jniOptsBuf "-Xjniopts:" "dalvik.vm.jniopts" 10 (some "")

/-! ### Options -/

def hookOptions (l : Locals) : Option Locals :=
  some ((((l.addHook (.literal "exit") .runtimeExit).addHook (.literal "vfprintf")
    .runtimeVfprintf).addHook (.literal "sensitiveThread") .runtimeIsSensitiveThread).add
      (.literal "-verbose:gc"))

def heapstartsizeOption (properties : Properties) (l : Locals) : Option Locals := do
  let l ← namedValue properties .heapstartsizeOptsBuf "-Xms" "dalvik.vm.heapstartsize" 4
    (some "4m") l
  some (l.add (.array .heapstartsizeOptsBuf 0))

def heapsizeOption (properties : Properties) (l : Locals) : Option Locals := do
  let l ← namedValue properties .heapsizeOptsBuf "-Xmx" "dalvik.vm.heapsize" 4 (some "16m") l
  some (l.add (.array .heapsizeOptsBuf 0))

def literalOption (text : String) (l : Locals) : Option Locals := some (l.add (.literal text))

/-- The option in an array, unless the cell behind its name ends it. -/
def unlessEmpty (a : CharArray) (i : ℕ) (l : Locals) : Option Locals := do
  let c ← l.arrays.read a i
  some (if c ≠ nul then l.add (.array a 0) else l)

def optionalValue (properties : Properties) (a : CharArray) (name key : String) (i : ℕ)
    (defaultValue : Option String) (l : Locals) : Option Locals := do
  let l ← namedValue properties a name key i defaultValue l
  unlessEmpty a i l

def jitcodecachesizeOption (properties : Properties) : Locals → Option Locals :=
  optionalValue properties .jitcodecachesizeOptsBuf "-Xjitcodecachesize:"
    "dalvik.vm.jit.codecachesize" 19 none

def heapgrowthlimitOption (properties : Properties) : Locals → Option Locals :=
  optionalValue properties .heapgrowthlimitOptsBuf "-XX:HeapGrowthLimit="
    "dalvik.vm.heapgrowthlimit" 20 (some "")

def heapminfreeOption (properties : Properties) : Locals → Option Locals :=
  optionalValue properties .heapminfreeOptsBuf "-XX:HeapMinFree=" "dalvik.vm.heapminfree" 16
    (some "")

def heapmaxfreeOption (properties : Properties) : Locals → Option Locals :=
  optionalValue properties .heapmaxfreeOptsBuf "-XX:HeapMaxFree=" "dalvik.vm.heapmaxfree" 16
    (some "")

def heaptargetutilizationOption (properties : Properties) : Locals → Option Locals :=
  optionalValue properties .heaptargetutilizationOptsBuf "-XX:HeapTargetUtilization="
    "dalvik.vm.heaptargetutilization" 26 (some "")

def lowRamOption (properties : Properties) (l : Locals) : Option Locals := do
  let l ← propertyGet properties "ro.config.low_ram" .propBuf 0 (some "") l
  let value ← l.text .propBuf 0
  some (if value = "true".toList then l.add (.literal "-XX:LowMemoryMode") else l)

def verification : Char → Option String
  | 'n' => some "-Xverify:none"
  | 'r' => some "-Xverify:remote"
  | 'a' => some "-Xverify:all"
  | _ => none

def optimization : Char → Option String
  | 'n' => some "-Xdexopt:none"
  | 'v' => some "-Xdexopt:verified"
  | 'a' => some "-Xdexopt:all"
  | 'f' => some "-Xdexopt:full"
  | _ => none

/-- The option that the character behind the first occurrence of the flag stands for. -/
def dexoptFlag (flags : List Char) (flag : String) (option : Char → Option String)
    (l : Locals) : Option Locals :=
  match strstr flag.toList flags with
  | none => some l
  | some opc => do
    let c ← l.arrays.read .dexoptFlagsBuf (opc + 2)
    some (match option c with
      | none => l
      | some val => l.add (.literal val))

def registerMap (flags : List Char) (l : Locals) : Locals :=
  match strstr "m=y".toList flags with
  | none => l
  | some _ => (l.add (.literal "-Xgenregmap")).add (.literal "-Xgc:precise")

def dexoptOptions (properties : Properties) (l : Locals) : Option Locals := do
  let l ← propertyGet properties "dalvik.vm.dexopt-flags" .dexoptFlagsBuf 0 (some "") l
  let c ← l.arrays.read .dexoptFlagsBuf 0
  if c ≠ nul then do
    let flags ← l.text .dexoptFlagsBuf 0
    let l ← dexoptFlag flags "v=" verification l
    let l ← dexoptFlag flags "o=" optimization l
    some (registerMap flags l)
  else some l

def checkJniOptions (l : Locals) : Option Locals :=
  some (if l.checkJni then
    (l.add (.literal "-Xcheck:jni")).add (.literal "-Xjnigreflimit:2000")
  else l)

/-- An array that is filled only if the property is set. -/
def joinedOption (properties : Properties) (a : CharArray) (size : ℕ) (name key : String)
    (l : Locals) : Option Locals := do
  let l ← propertyGet properties key .propBuf 0 (some "") (l.declare a size)
  let value ← l.text .propBuf 0
  if value.length > 0 then do
    let l ← strcpy a 0 name.toList l
    let l ← strcat a value l
    some (l.add (.array a 0))
  else some l

def lockProfThresholdOption (properties : Properties) : Locals → Option Locals :=
  joinedOption properties .lockProfThresholdBuf
    ("-Xlockprofthreshold:".length + 1 + PROPERTY_VALUE_MAX) "-Xlockprofthreshold:"
    "dalvik.vm.lockprof.threshold"

def jitOpOption (properties : Properties) : Locals → Option Locals :=
  joinedOption properties .jitOpBuf ("-Xjitop:".length + 1 + PROPERTY_VALUE_MAX) "-Xjitop:"
    "dalvik.vm.jit.op"

def jitMethodOption (properties : Properties) : Locals → Option Locals :=
  joinedOption properties .jitMethodBuf ("-Xjitmethod:".length + 1 + PROPERTY_VALUE_MAX)
    "-Xjitmethod:" "dalvik.vm.jit.method"

def executionModeOption (l : Locals) : Option Locals :=
  match l.executionMode with
  | .kEMIntPortable => some (l.add (.literal "-Xint:portable"))
  | .kEMIntFast => some (l.add (.literal "-Xint:fast"))
  | .kEMJitCompiler => some (l.add (.literal "-Xint:jit"))
  | .kEMDefault => some l

def checkDexSumOption (l : Locals) : Option Locals :=
  some (if l.checkDexSum then l.add (.literal "-Xcheckdexsum") else l)

def logStdioOption (l : Locals) : Option Locals :=
  some (if l.logStdio then l.add (.literal "-Xlog-stdio") else l)

/-- "all" stands for all classes and packages: the colon goes. -/
def acceptAll (value : List Char) (l : Locals) : Option Locals :=
  if value = "all".toList then strcpy .enableAssertBuf 3 [] l else some l

def enableAssertOption (l : Locals) : Option Locals := do
  let c ← l.arrays.read .enableAssertBuf 4
  if c ≠ nul then do
    let value ← l.text .enableAssertBuf 4
    let l ← acceptAll value l
    some (l.add (.array .enableAssertBuf 0))
  else some l

def jniOptsOption : Locals → Option Locals := unlessEmpty .jniOptsBuf 10

def stackTraceFileOption (l : Locals) : Option Locals := do
  let c ← l.arrays.read .stackTraceFileBuf 0
  if c ≠ nul then do
    let value ← l.text .stackTraceFileBuf 0
    let l ← strcpy .stackTraceFile 0 "-Xstacktracefile:".toList
      (l.declare .stackTraceFile ("-Xstacktracefile:".length + value.length + 1))
    let l ← strcat .stackTraceFile value l
    some (l.add (.array .stackTraceFile 0))
  else some l

/-! ### Extra options -/

def skipSpaces : Cells Char → ℕ → Option ℕ := advance fun c => c = ' '

def findEnd : Cells Char → ℕ → Option ℕ := advance fun c => c ≠ ' ' ∧ c ≠ nul

def endToken (a : CharArray) (i : ℕ) (l : Locals) : Option (ℕ × Locals) := do
  let c ← l.arrays.read a i
  if c = ' ' then do
    let arrays ← l.arrays.write a i [nul]
    some (i + 1, { l with arrays := arrays })
  else some (i, l)

/-- At most so many rounds of the loop of `parseExtraOpts`. -/
def parseExtraOpts (a : CharArray) : ℕ → ℕ → Locals → Option Locals
  | 0, _, _ => none
  | rounds + 1, i, l => do
    let c ← l.arrays.read a i
    if c = nul then some l
    else do
      let cells ← l.arrays a
      let start ← skipSpaces (cells.drop i) i
      let c ← l.arrays.read a start
      if c = nul then some l
      else do
        let i ← findEnd (cells.drop (start + 1)) (start + 1)
        let next ← endToken a i l
        parseExtraOpts a rounds next.1 (next.2.add (.array a start))

def extraOptions (properties : Properties) (l : Locals) : Option Locals := do
  let l ← propertyGet properties "dalvik.vm.extra-opts" .extraOptsBuf 0 (some "") l
  parseExtraOpts .extraOptsBuf PROPERTY_VALUE_MAX 0 l

/-! ### The locale -/

def readProductLocale (properties : Properties) (l : Locals) : Option Locals := do
  let l ← propertyGet properties "ro.product.locale.language" .propLang 0 (some "en") l
  propertyGet properties "ro.product.locale.region" .propRegn 0 (some "US") l

def readLocaleValues (properties : Properties) (l : Locals) : Option Locals := do
  let l ← propertyGet properties "persist.sys.language" .propLang 0 (some "") l
  let l ← propertyGet properties "persist.sys.country" .propRegn 0 (some "") l
  let c ← l.arrays.read .propLang 0
  let c' ← l.arrays.read .propRegn 0
  if c = nul ∧ c' = nul then readProductLocale properties l else some l

def readLocale (properties : Properties) (language region : CharArray) (l : Locals) :
    Option Locals := do
  let l ← readLocaleValues properties
    ((l.declare .propLang PROPERTY_VALUE_MAX).declare .propRegn PROPERTY_VALUE_MAX)
  let propLang ← l.text .propLang 0
  let l ← strncat language propLang 2 l
  let propRegn ← l.text .propRegn 0
  let l ← strncat region propRegn 2 l
  some ((l.leave .propLang).leave .propRegn)

def localeOptions (properties : Properties) (l : Locals) : Option Locals := do
  let l ← strcpy .langOption 0 "-Duser.language=".toList
    ((l.declare .langOption ("-Duser.language=".length + 1 + 3)).declare .regionOption
      ("-Duser.region=".length + 1 + 3))
  let l ← strcpy .regionOption 0 "-Duser.region=".toList l
  let l ← readLocale properties .langOption .regionOption l
  some ((((l.add (.array .langOption 0)).add (.array .regionOption 0)).leave .langOption).leave
    .regionOption)

/-! ### The whole function -/

/-- An option as the VM reads it: nothing where the array has gone. -/
structure VmOption where
  text : Option (List Char)
  extraInfo : Option Hook := none
  deriving DecidableEq

def string (arrays : Arrays CharArray Char) : CharPointer → Option (List Char)
  | .argument arg => some arg.chars
  | .literal text => some text.toList
  | .array a i => arrays.text nul a i

def JavaVMOption.read (arrays : Arrays CharArray Char) (opt : JavaVMOption) : VmOption :=
  ⟨string arrays opt.optionString, opt.extraInfo⟩

def Locals.read (l : Locals) : List VmOption := l.mOptions.map (JavaVMOption.read l.arrays)

def entry (mOptions : List JavaVMOption) : Locals where
  arrays a := (entrySize a).map fun size => List.replicate size none
  mOptions := mOptions

def runParts (parts : List (Locals → Option Locals)) (l : Locals) : Option Locals :=
  parts.foldlM (fun l part => part l) l

def readParts (properties : Properties) : List (Locals → Option Locals) :=
  [readCheckJni properties, readExecutionMode properties, readStackTraceFile properties,
    readCheckDexSum properties, readLogStdio properties, readEnableAssert properties,
    readJniOpts properties]

def optionParts (properties : Properties) : List (Locals → Option Locals) :=
  [hookOptions, heapstartsizeOption properties, heapsizeOption properties,
    literalOption "-XX:mainThreadStackSize=24K", jitcodecachesizeOption properties,
    heapgrowthlimitOption properties, heapminfreeOption properties,
    heapmaxfreeOption properties, heaptargetutilizationOption properties,
    lowRamOption properties, dexoptOptions properties,
    literalOption "-agentlib:jdwp=transport=dt_android_adb,suspend=n,server=y",
    checkJniOptions, lockProfThresholdOption properties, jitOpOption properties,
    jitMethodOption properties, executionModeOption, checkDexSumOption, logStdioOption,
    enableAssertOption, jniOptsOption, stackTraceFileOption, extraOptions properties,
    localeOptions properties, literalOption "-Djava.io.tmpdir=/sdcard"]

/-- The result, and the options with which the VM is created. -/
def startVm (properties : Properties) (createJavaVM : List VmOption → ℤ)
    (vmArguments : List Argument) : Option (ℤ × List VmOption) := do
  let l ← runParts (readParts properties)
    (entry (vmArguments.map fun arg => ⟨.argument arg, none⟩))
  let l ← runParts (optionParts properties) l
  some (if createJavaVM l.read < 0 then -1 else 0, l.read)

end Shashlik.LauncherVmOptions
