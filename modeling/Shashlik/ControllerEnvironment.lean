import Shashlik.PropertyLookups

set_option autoImplicit false

/-!
# The environment of the processes

The Controller gives every process it starts an environment with the directories of the
installation. The libraries of the display are looked up in one of them, under a name that the
property daemon gives.
-/
namespace Shashlik.ControllerEnvironment
open Settings SystemRuns Linearizability Propertiesd PropertiesdPaths PropertiesdFrames
open PropertiesdReadYourWrites PropertiesdClients HardwareModules PropertyLookups

abbrev ProcessEnvironment := String → Option String

def value (env : ProcessEnvironment) (name : String) : String := (env name).getD ""

def insert (env : ProcessEnvironment) (name value : String) : ProcessEnvironment :=
  Function.update env name (some value)

/-- The directories that the Controller finds from where its program lies. -/
structure Installation where
  appDir : String
  libraryRoot : String
  androidRootDir : String

def replaceInStrings (texts : List String) (before after : String) : List String :=
  texts.map fun text => text.replace before after

def join (texts : List String) : String := ":".intercalate texts

def path (env : ProcessEnvironment) (d : Installation) : List String :=
  replaceInStrings [value env "PATH", d.appDir, "ANDROID_ROOT/sbin", "ANDROID_ROOT/vendor/bin",
    "ANDROID_ROOT/system/sbin", "ANDROID_ROOT/system/bin", "ANDROID_ROOT/system/xbin"]
    "ANDROID_ROOT" d.androidRootDir

def ldpath (env : ProcessEnvironment) (d : Installation) : List String :=
  replaceInStrings (replaceInStrings [value env "LD_LIBRARY_PATH", "/usr/lib", "LIBPATH/lib64",
    "LIBPATH/lib64/egl", "ANDROID_ROOT/vendor/lib", "ANDROID_ROOT/system/lib"]
    "LIBPATH" d.libraryRoot) "ANDROID_ROOT" d.androidRootDir

def bootclasspath (d : Installation) : List String :=
  replaceInStrings ["JARPATH/core.jar", "JARPATH/conscrypt.jar", "JARPATH/bouncycastle.jar",
    "JARPATH/okhttp.jar", "JARPATH/ext.jar", "JARPATH/framework.jar",
    "JARPATH/telephony-common.jar", "JARPATH/voip-common.jar", "JARPATH/framework2.jar",
    "JARPATH/shashlik.jar"] "JARPATH" (d.androidRootDir ++ "/system/framework")

def environment (systemEnvironment : ProcessEnvironment) (d : Installation) :
    ProcessEnvironment :=
  let env := insert systemEnvironment "PATH" (join (path systemEnvironment d))
  let env := insert env "LD_LIBRARY_PATH" (join (ldpath env d))
  let env := insert env "BOOTCLASSPATH" (join (bootclasspath d))
  let env := insert env "SHASHLIK_ROOT" d.androidRootDir
  let env := insert env "ANDROID_ROOT" (d.androidRootDir ++ "/system")
  let env := insert env "ANDROID_ASSETS" (d.androidRootDir ++ "/system/app")
  let env := insert env "ANDROID_DATA" (d.androidRootDir ++ "/data")
  let env := insert env "ANDROID_STORAGE" (d.androidRootDir ++ "/storage")
  let env := insert env "ASEC_MOUNTPOINT" (d.androidRootDir ++ "/mnt/asec")
  let env := insert env "LOOP_MOUNTPOINT" (d.androidRootDir ++ "/mnt/obb")
  let env := insert env "HAL_LIBRARY_PATH1" (d.androidRootDir ++ "/system/lib/hw")
  let env := insert env "DOWNLOAD_CACHE" (d.androidRootDir ++ "/cache")
  let env := insert env "ANDROID_WINDOW_SIZE" "200x200"
  let env := insert env "EGL_PLATFORM" "wayland"
  insert env "EXTERNAL_STORAGE" "/mnt"

theorem environment_halLibraryPath1 (systemEnvironment : ProcessEnvironment) (d : Installation) :
    environment systemEnvironment d "HAL_LIBRARY_PATH1" =
      some (d.androidRootDir ++ "/system/lib/hw") := by
  simp [environment, insert, Function.update]

/-! ### Modules of the display -/

def hardwareAnswer : Option QByteArray → PropertyAnswer
  | none => .unreachable
  | some bytes =>
    if h : String.ofList (fromLatin1 bytes) ≠ "" then .set (String.ofList (fromLatin1 bytes)) h
    else .unset

/-- What a process that the Controller has started looks a module up in. -/
def processEnvironment (host : HardwareModules.Environment) (systemEnvironment : ProcessEnvironment)
    (d : Installation) (get : PropertyGet) (stack : QString → Stack) (q : QSettings) :
    HardwareModules.Environment :=
  { host with
    property := fun key => hardwareAnswer (get.lookup stack q key.toList)
    libraryPath1 := environment systemEnvironment d "HAL_LIBRARY_PATH1" }

/-- The modules that `initProperties` names. -/
def displayModules : List String := ["gralloc", "hwcomposer"]

theorem displayModule_usable : ∀ classId ∈ displayModules,
    Usable (propName classId).toList ∧ classId.length < PROPERTY_VALUE_MAX ∧
      initialMap (propName classId).toList = toLatin1 "shashlik".toList := by
  decide +kernel

theorem hardwareAnswer_shashlik :
    hardwareAnswer (some (toLatin1 "shashlik".toList)) = .set "shashlik" (by decide) := by
  have htext : String.ofList (fromLatin1 (toLatin1 "shashlik".toList)) = "shashlik" := by decide
  have hne : String.ofList (fromLatin1 (toLatin1 "shashlik".toList)) ≠ "" := by
    rw [htext]
    decide
  rw [hardwareAnswer, dif_pos hne]
  simp only [htext]

def installedModule (d : Installation) (classId : String) : String :=
  modulePath (d.androidRootDir ++ "/system/lib/hw") classId "shashlik"

/-- The file with which the search ends, where the installation has one. -/
def foundModule (host : HardwareModules.Environment) (d : Installation) (classId : String) :
    String :=
  let vendorModule := modulePath host.HAL_LIBRARY_PATH2 classId "shashlik"
  if host.readable vendorModule then vendorModule else installedModule d classId

section
variable {host : HardwareModules.Environment} {systemEnvironment : ProcessEnvironment}
  {d : Installation} {get : PropertyGet} {stack : QString → Stack} {q : QSettings}
  {classId : String}

theorem processEnvironment_property (key : String) :
    (processEnvironment host systemEnvironment d get stack q).property key =
      hardwareAnswer (get.lookup stack q key.toList) := rfl

theorem fileOf_of_short {env : HardwareModules.Environment} {name subname : String}
    (hset : env.libraryPath1 ≠ none)
    (hshort : ∀ path ∈ listedPaths env name subname, path.length < PATH_MAX) :
    fileOf env name subname = (listedPaths env name subname).find? env.readable := by
  obtain ⟨directory, hdirectory⟩ := Option.ne_none_iff_exists'.mp hset
  rw [listedPaths, hdirectory] at hshort ⊢
  simp only [Option.toList_some, List.map_cons, List.map_nil, List.forall_mem_cons] at hshort ⊢
  obtain ⟨hvendor, hpath1, -⟩ := hshort
  rw [fileOf, hwModuleExists, hdirectory, Option.getD_some, snprintf_of_short hvendor,
    snprintf_of_short hpath1]
  by_cases hfirst : env.readable (modulePath env.HAL_LIBRARY_PATH2 name subname) = true
  · rw [if_pos hfirst, List.find?_cons_of_pos hfirst]
    rfl
  · rw [if_neg hfirst, List.find?_cons_of_neg hfirst]
    by_cases hsecond : env.readable (modulePath directory name subname) = true
    · rw [if_pos hsecond, List.find?_cons_of_pos hsecond]
      rfl
    · rw [if_neg hsecond, List.find?_cons_of_neg hsecond]
      rfl

theorem fileOf_shashlik (hfits : classId.length < PROPERTY_VALUE_MAX)
    (hreadable : host.readable (installedModule d classId) = true) :
    fileOf (processEnvironment host systemEnvironment d get stack q) classId "shashlik" =
      some (foundModule host d classId) := by
  have hpath : (processEnvironment host systemEnvironment d get stack q).libraryPath1 =
      some (d.androidRootDir ++ "/system/lib/hw") := environment_halLibraryPath1 systemEnvironment d
  have hvendor : (modulePath host.HAL_LIBRARY_PATH2 classId "shashlik").length < PATH_MAX := by
    have hdirectory : host.HAL_LIBRARY_PATH2.length ≤ 16 := by
      unfold HardwareModules.Environment.HAL_LIBRARY_PATH2
      split <;> decide
    unfold PROPERTY_VALUE_MAX at hfits
    simp only [modulePath, String.length_append, PATH_MAX]
    rw [show "/".length = 1 from rfl, show ".".length = 1 from rfl,
      show "shashlik".length = 8 from rfl, show ".so".length = 3 from rfl]
    omega
  have hpaths : listedPaths (processEnvironment host systemEnvironment d get stack q) classId
      "shashlik" =
        [modulePath host.HAL_LIBRARY_PATH2 classId "shashlik", installedModule d classId] := by
    rw [listedPaths, hpath]
    rfl
  rw [fileOf_of_short (by rw [hpath]; exact Option.some_ne_none _) (by
    rw [hpaths, List.forall_mem_cons, List.forall_mem_singleton]
    exact ⟨hvendor, host.short _ hreadable⟩), hpaths, foundModule]
  change List.find? host.readable _ = _
  by_cases hfirst : host.readable (modulePath host.HAL_LIBRARY_PATH2 classId "shashlik")
  · rw [List.find?_cons_of_pos hfirst]
    exact congrArg some (if_pos hfirst).symm
  · rw [List.find?_cons_of_neg hfirst, List.find?_cons_of_pos hreadable]
    exact congrArg some (if_neg hfirst).symm

theorem search_shashlik (hfits : classId.length < PROPERTY_VALUE_MAX)
    (hproperty : (processEnvironment host systemEnvironment d get stack q).property
      (propName classId) = .set "shashlik" (by decide))
    (hreadable : host.readable (installedModule d classId) = true) (prop : String) :
    search (processEnvironment host systemEnvironment d get stack q) classId prop =
      ⟨["shashlik"], some (foundModule host d classId)⟩ := by
  have hfile : fileOf (processEnvironment host systemEnvironment d get stack q) classId "shashlik" =
      some (foundModule host d classId) := fileOf_shashlik hfits hreadable
  rw [search_set hproperty, tryModule_found (by rw [hfile]; exact Option.some_ne_none _), hfile]

end

def sampleInstallation : Installation := ⟨"/opt/bin", "/opt", "/opt/android"⟩

def sampleHost : HardwareModules.Environment where
  lp64 := true
  readable path := path == "/opt/android/system/lib/hw/gralloc.shashlik.so"
  short path h := by
    rw [beq_iff_eq.mp h]
    decide
  libraryPath1 := none
  property _ := .unset
  dlopen _ := some ⟨some ⟨"gralloc"⟩⟩

end Shashlik.ControllerEnvironment
