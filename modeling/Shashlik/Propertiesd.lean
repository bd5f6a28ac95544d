import Shashlik.Settings
import Shashlik.Library.CStrings

set_option autoImplicit false

/-!
# The property daemon

`Propertiesd` keeps the Android system properties in a `QSettings` store and answers requests
on local sockets. A name is cut at its dots into nested groups. The functions return `none`
where the program has undefined behaviour: `groups.last()` on an empty list.
-/
namespace Shashlik.Propertiesd
open Settings CStrings SegmentPaths LatestWrites

abbrev QByteArray := List UInt8

def PROP_NAME_MAX : ℕ := 32
def PROP_VALUE_MAX : ℕ := 92
def PROPERTY_KEY_MAX : ℕ := 32

def kSystemPropertyUnknown : UInt8 := 0
def kSystemPropertyGet : UInt8 := 1
def kSystemPropertySet : UInt8 := 2
def kSystemPropertyList : UInt8 := 3

/-- `QString::fromLatin1` of a byte array: up to the first NUL. -/
def fromLatin1 (bytes : QByteArray) : QString :=
  (cString bytes).map (fun b => Char.ofNat b.toNat)

def toLatin1 (s : QString) : QByteArray :=
  s.map (fun c => if c.toNat < 256 then UInt8.ofNat c.toNat else 63)

def splitGroups (key : QString) : List QString := segments '.' key

def writeProperty (q : QSettings) (key value : QString) : Option QSettings :=
  if key = [] then some q
  else
    let groups := splitGroups key
    let q := groups.dropLast.foldl QSettings.beginGroup q
    -- the source truncates a copy, `writeValue`, and stores `value` itself
    match groups.getLast? with
    | none => none
    | some last => some (QSettings.endGroup^[groups.length - 1] (q.setValue last value))

def readProperty (q : QSettings) (key : QString) : Option (QString × QSettings) :=
  if key = [] then some ([], q)
  else
    let groups := splitGroups key
    let q := groups.dropLast.foldl QSettings.beginGroup q
    match groups.getLast? with
    | none => none
    | some last => some (q.value last [], QSettings.endGroup^[groups.length - 1] q)

def initialProperties : List (String × String) :=
  [("ro.factorytest", "0"),
   ("ro.build.display.id", "Shashlik"),
   ("ro.build.version.incremental", "1234567"),
   ("ro.build.version.sdk", "19"),
   ("ro.build.version.codename", "REL"),
   ("ro.build.version.release", "4.4.2"),
   ("ro.build.version.date", "Thu Jun 18 17:49:04 PDT 2015"),
   ("ro.build.type", "eng"),
   ("ro.build.tags", "test-keys"),
   ("ro.product.model", "sdk"),
   ("ro.product.name", "sdk"),
   ("ro.build.user", "generic"),
   ("ro.build.host", "generic"),
   ("ro.product.brand", "generic"),
   ("ro.product.manufacturer", "generic"),
   ("ro.product.device", "generic"),
   ("ro.build.product", "generic"),
   ("ro.kernel.qemu", "0"),
   ("ro.kernel.android.checkjni", "1"),
   ("ro.secure", "0"),
   ("ro.debuggable", "0"),
   ("ro.config.low_ram", "0"),
   ("ro.config.headless", "0"),
   ("ro.zygote.disable_gl_preload", "false"),
   ("debug.egl.trace", "error"),
   ("debug.egl.callstack", "0"),
   ("debug.sf.showupdates", "0"),
   ("debug.sf.ddms", "0"),
   ("debug.sf.no_hw_vsync", "0"),
   ("ro.bq.gpu_to_cpu_unsupported", "0"),
   ("ro.hardware.hwcomposer", "shashlik"),
   ("ro.hardware.gralloc", "shashlik"),
   ("log.redirect-stdio", "false"),
   ("dalvik.vm.checkjni", "1"),
   ("dalvik.vm.execution-mode", "int:jit"),
   ("dalvik.vm.stack-trace-file", ""),
   ("dalvik.vm.check-dex-sum", "false"),
   ("dalvik.vm.enableassertions", "false"),
   ("dalvik.vm.jniopts", ""),
   ("dalvik.vm.heapstartsize", "8m"),
   ("dalvik.vm.heapgrowthlimit", "192m"),
   ("dalvik.vm.heapsize", "512m"),
   ("dalvik.vm.heaptargetutilization", "0.75"),
   ("dalvik.vm.heapminfree", "512k"),
   ("dalvik.vm.heapmaxfree", "8m"),
   ("dalvik.vm.dexopt-flags", ""),
   ("dalvik.vm.lockprof.threshold", ""),
   ("dalvik.vm.extra-opts", ""),
   ("dalvik.vm.jit.codecachesize", ""),
   ("dalvik.vm.jit.op", ""),
   ("dalvik.vm.jit.method", ""),
   ("persist.sys.language", "en"),
   ("persist.sys.country", "US"),
   ("ro.sf.lcd_density", "200"),
   ("system_init.startsensorservice", "1"),
   ("sys.shutdown.requested", "0"),
   ("config.disable_systemui", "0"),
   ("config.disable_storage", "1"),
   ("config.disable_media", "1"),
   ("config.disable_location", "1"),
   ("config.disable_noncore", "1"),
   ("config.disable_network", "1"),
   ("persist.sys.strictmode.disable", "1")]

def writeProperties (q : QSettings) (ps : List (QString × QString)) : Option QSettings :=
  ps.foldlM (fun q p => writeProperty q p.1 p.2) q

def initialWrites : List (QString × QString) :=
  initialProperties.map (fun p => (p.1.toList, p.2.toList))

def initProperties (q : QSettings) : Option QSettings :=
  if q.childKeys ≠ [] then some q else writeProperties q initialWrites

/-- The memory at and behind a local array of `readRequest`. Some byte behind the first one
    is zero, so that reading a C string from the array stops at `bound` at the latest. -/
structure Stack where
  byte : Memory
  bound : ℕ
  bound_pos : 0 < bound
  bound_zero : byte bound = 0

def plainStack : Stack := ⟨fun _ => 0, 1, by decide, rfl⟩

def respWrites (rv : QByteArray) : List (ℕ × UInt8) :=
  (0, if rv.length < 1 then 0 else 1) :: strcpyWrites 1 rv ++ [(rv.length + 2, 0)]

def getReply (stack : Stack) (rv : QByteArray) : QByteArray :=
  dump (writeAll stack.byte (respWrites rv)) (PROP_VALUE_MAX + 1)

/-- `dev->write(rv)` with `rv[0] = 1`: the C string that starts at the one-byte array. -/
def setReply (stack : Stack) : QByteArray :=
  cString (dump (writeAll stack.byte [(0, 1)]) stack.bound)

/-- What one request did: the store afterwards, the call of `writeProperty` if one was made,
    and the bytes written to the socket. -/
structure Outcome where
  settings : QSettings
  update : Option (QString × QString)
  reply : QByteArray

def answer (stack : Stack) (q : QSettings) (data : QByteArray) : Option Outcome :=
  if data.length < 2 then some ⟨q, none, []⟩
  else
    let command := data.headD 0
    if command = kSystemPropertyUnknown then some ⟨q, none, []⟩
    else if command = kSystemPropertyGet then
      let key := fromLatin1 (data.drop 1)
      (readProperty q key).map (fun r => ⟨r.2, none, getReply stack (toLatin1 r.1)⟩)
    else if command = kSystemPropertySet then
      let key := fromLatin1 ((data.drop 1).take PROPERTY_KEY_MAX)
      let value := fromLatin1 (data.drop (PROPERTY_KEY_MAX + 1))
      (writeProperty q key value).map (fun q => ⟨q, some (key, value), setReply stack⟩)
    else if command = kSystemPropertyList then some ⟨q, none, []⟩
    else some ⟨q, none, [48, 48]⟩

def requestSize : ℕ := PROP_NAME_MAX + PROP_VALUE_MAX + 1

/-- One call on a device holding unread bytes; the bytes past the read limit stay unread. -/
def readRequest (stack : Stack) (q : QSettings) (dev : QByteArray) :
    Option (Outcome × QByteArray) :=
  (answer stack q (dev.take requestSize)).map (fun o => (o, dev.drop requestSize))

theorem answer_short (stack : Stack) (q : QSettings) (data : QByteArray) (h : data.length < 2) :
    answer stack q data = some ⟨q, none, []⟩ := by
  rw [answer, if_pos h]

theorem answer_unknown (stack : Stack) (q : QSettings) (data : QByteArray)
    (h : data.headD 0 = kSystemPropertyUnknown) : answer stack q data = some ⟨q, none, []⟩ := by
  unfold answer
  split
  · rfl
  · simp only [h, ↓reduceIte]

theorem answer_command_get (stack : Stack) (q : QSettings) (data : QByteArray)
    (hlen : ¬ data.length < 2) (h : data.headD 0 = kSystemPropertyGet) :
    answer stack q data = (readProperty q (fromLatin1 (data.drop 1))).map
      (fun r => ⟨r.2, none, getReply stack (toLatin1 r.1)⟩) := by
  simp only [answer, if_neg hlen, h]
  rw [if_neg (by decide), if_pos trivial]

theorem answer_command_set (stack : Stack) (q : QSettings) (data : QByteArray)
    (hlen : ¬ data.length < 2) (h : data.headD 0 = kSystemPropertySet) :
    answer stack q data =
      (writeProperty q (fromLatin1 ((data.drop 1).take PROPERTY_KEY_MAX))
        (fromLatin1 (data.drop (PROPERTY_KEY_MAX + 1)))).map
      (fun q => ⟨q, some (fromLatin1 ((data.drop 1).take PROPERTY_KEY_MAX),
        fromLatin1 (data.drop (PROPERTY_KEY_MAX + 1))), setReply stack⟩) := by
  simp only [answer, if_neg hlen, h]
  rw [if_neg (by decide), if_neg (by decide), if_pos trivial]

end Shashlik.Propertiesd
