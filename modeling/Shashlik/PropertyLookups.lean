import Shashlik.HardwareModules
import Shashlik.LauncherVmStart
import Shashlik.PropertiesdClients
import Shashlik.PropertiesdNames

set_option autoImplicit false

/-!
# Properties as the programs find them

`property_get`, a function of a library that is not part of the sources, asks the daemon with a
request of its own. What it finds in any state that the daemon reaches with its clients is what
their calls have made of the property map, and so are the options with which a launcher starts
the virtual machine.
-/
namespace Shashlik.PropertyLookups
open Settings CStrings SystemRuns Linearizability Propertiesd PropertiesdPaths PropertiesdFrames
open PropertiesdReadYourWrites PropertiesdReplies PropertiesdClients LauncherArguments

/-- A key that fits and that the daemon keeps a value for. -/
def Usable (key : QString) : Prop :=
  key.length < Propertiesd.PROPERTY_KEY_MAX ∧ (∀ c ∈ key, c.toNat ≠ 0 ∧ c.toNat < 256) ∧
    ValidName key

-- by the characters of the key and not by all characters
instance (key : QString) : Decidable (Usable key) :=
  haveI := List.decidableBAll (fun c : Char => c.toNat ≠ 0 ∧ c.toNat < 256) key
  inferInstanceAs (Decidable (_ ∧ _ ∧ _))

/-- `property_get`: what it writes for a key, and the value that it finds in the reply. -/
structure PropertyGet where
  request : QString → QByteArray
  value : QByteArray → Option QByteArray

/-- It writes a Get of the key. The first byte of a reply tells whether there is a value; the
    value of a property that is not set is empty. -/
structure PropertyGet.Documented (get : PropertyGet) : Prop where
  request : ∀ key, Usable key → ∃ f : GetFrame, f.name.text = toLatin1 key ∧
    get.request key = (Frame.get f).bytes
  set : ∀ reply, reply.length = PROP_VALUE_MAX + 1 → (replyView reply).1 = 1 →
    get.value reply = some (replyView reply).2
  unset : ∀ reply, reply.length = PROP_VALUE_MAX + 1 → (replyView reply).1 = 0 →
    get.value reply = some []

def PropertyGet.lookup (get : PropertyGet) (stack : QString → Stack) (q : QSettings)
    (key : QString) : Option QByteArray :=
  (readRequestInside (stack key) q (get.request key)).bind fun r => get.value r.1.reply

theorem Usable.fromLatin1_toLatin1 {key : QString} (h : Usable key) :
    fromLatin1 (toLatin1 key) = key := by
  have hname := PropertiesdNames.fromLatin1_name key h.2.1 0
  rwa [List.replicate_zero, List.append_nil] at hname

theorem PropertyGet.Documented.lookup {get : PropertyGet} (documented : get.Documented)
    {q : QSettings} {m : PropertyMap} (h : Represents q m) (hshort : ∀ name, (m name).length ≤ 90)
    (stack : QString → Stack) {key : QString} (hkey : Usable key) :
    get.lookup stack q key = some (m key) := by
  obtain ⟨f, htext, hrequest⟩ := documented.request key hkey
  obtain ⟨o, hread, -, hreply, hview⟩ := readRequestInside_get h f (hshort _) (stack key)
  rw [htext, hkey.fromLatin1_toLatin1] at hview
  rw [PropertyGet.lookup, hrequest, hread, Option.bind_some]
  by_cases hempty : m key = []
  · rw [expectedView, if_pos hempty] at hview
    rw [documented.unset o.reply hreply (by rw [hview]), hempty]
  · rw [expectedView, if_neg hempty] at hview
    rw [documented.set o.reply hreply (by rw [hview]), hview]

/-- A `property_get` that fills its buffer with one byte before it writes the key. -/
def fillingGet : PropertyGet where
  request key := kSystemPropertyGet :: (toLatin1 key ++
    0 :: List.replicate (Propertiesd.PROPERTY_KEY_MAX - 1 - key.length) 0xdd)
  value reply :=
    if reply.headD 0 = 0 then some []
    else if reply.headD 0 = 1 then some (cString (reply.drop 1))
    else none

theorem fillingGet_documented : fillingGet.Documented where
  request key hkey := by
    have hname := hkey.fromLatin1_toLatin1
    obtain ⟨hlength, hlatin, hvalid⟩ := hkey
    have hnul : (0 : UInt8) ∉ toLatin1 key := by
      intro hmem
      obtain ⟨c, hc, hzero⟩ := List.mem_map.mp hmem
      obtain ⟨hpos, hlt⟩ := hlatin c hc
      rw [if_pos hlt] at hzero
      have hnat := congrArg UInt8.toNat hzero
      rw [UInt8.toNat_ofNat_of_lt' hlt] at hnat
      exact hpos hnat
    have hfits : (toLatin1 key).length + 1 +
        (List.replicate (Propertiesd.PROPERTY_KEY_MAX - 1 - key.length) (0xdd : UInt8)).length =
          Propertiesd.PROPERTY_KEY_MAX := by
      simp only [toLatin1, List.length_map, List.length_replicate]
      omega
    exact ⟨⟨⟨toLatin1 key, _, hnul, hfits⟩, by rwa [hname]⟩, rfl, rfl⟩
  set reply _ hone := by
    change reply.headD 0 = 1 at hone
    change (if reply.headD 0 = 0 then _ else _) = _
    rw [hone, if_neg (by decide), if_pos rfl]
    rfl
  unset reply _ hzero := if_pos hzero

/-! ### The launcher -/

def propertyValue (bytes : QByteArray) : Option LauncherVmOptions.PropertyValue :=
  if h : nul ∉ fromLatin1 bytes ∧
      (fromLatin1 bytes).length < LauncherVmOptions.PROPERTY_VALUE_MAX then
    some ⟨⟨fromLatin1 bytes, h.1⟩, h.2⟩
  else none

def launcherProperties (get : PropertyGet) (stack : QString → Stack) (q : QSettings) :
    LauncherVmOptions.Properties :=
  fun key => (get.lookup stack q key.toList).bind propertyValue

def mapProperties (m : PropertyMap) : LauncherVmOptions.Properties :=
  fun key => propertyValue (m key.toList)

def vmKeys : List String :=
  ["dalvik.vm.heapstartsize", "dalvik.vm.heapsize", "dalvik.vm.jit.codecachesize",
    "dalvik.vm.heapgrowthlimit", "dalvik.vm.heapminfree", "dalvik.vm.heapmaxfree",
    "dalvik.vm.heaptargetutilization", "ro.config.low_ram", "dalvik.vm.dexopt-flags",
    "dalvik.vm.checkjni", "ro.kernel.android.checkjni", "dalvik.vm.lockprof.threshold",
    "dalvik.vm.jit.op", "dalvik.vm.jit.method", "dalvik.vm.execution-mode",
    "dalvik.vm.check-dex-sum", "log.redirect-stdio", "dalvik.vm.enableassertions",
    "dalvik.vm.jniopts", "dalvik.vm.stack-trace-file", "dalvik.vm.extra-opts"]

theorem vmOptions_congr {properties properties' : LauncherVmOptions.Properties}
    (h : ∀ key ∈ vmKeys, properties key = properties' key) :
    LauncherVmOptions.vmOptions properties = LauncherVmOptions.vmOptions properties' := by
  have hvalue (key defaultValue : String) (hkey : key ∈ vmKeys) :
      LauncherVmOptions.valueOr properties key defaultValue =
        LauncherVmOptions.valueOr properties' key defaultValue := by
    rw [LauncherVmOptions.valueOr, LauncherVmOptions.valueOr, h key hkey]
  have htrue (key : String) (hkey : key ∈ vmKeys) :
      LauncherVmOptions.isTrue properties key = LauncherVmOptions.isTrue properties' key := by
    rw [LauncherVmOptions.isTrue, LauncherVmOptions.isTrue, hvalue key "" hkey]
  have hcheck : LauncherVmOptions.checksJni properties =
      LauncherVmOptions.checksJni properties' := by
    rw [LauncherVmOptions.checksJni, LauncherVmOptions.checksJni, htrue _ (by decide),
      hvalue _ _ (by decide), hvalue _ _ (by decide)]
  have hmode : LauncherVmOptions.executionMode properties =
      LauncherVmOptions.executionMode properties' := by
    rw [LauncherVmOptions.executionMode, LauncherVmOptions.executionMode, hvalue _ _ (by decide)]
  unfold LauncherVmOptions.vmOptions
  rw [hcheck, hmode]
  simp (disch := decide) only [hvalue, htrue]

theorem vmKeys_usable : ∀ key ∈ vmKeys, Usable key.toList := by decide

end Shashlik.PropertyLookups
