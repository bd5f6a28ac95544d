import Mathlib.Logic.Function.Basic
import Shashlik.ProcessTrackers

set_option autoImplicit false

/-!
# The Controller

`Controller` starts and stops the Android services and applications. It keeps one `QProcess`
and one `ProcessTracker` for each service; a service counts as running as long as it has a
tracker. The state is the Controller with the operating system around it, and what a slot
does to the outside (signals sent, Qt signals emitted, processes started, lines printed) is
recorded in order.
-/
namespace Shashlik.ServiceController
open ProcessTables ProcessTrackers

inductive Service where
  | zygote
  | installd
  | bootanimation
  | surfaceflinger
  | adbd
  | servicemanager
  deriving DecidableEq

inductive ErrorLevel where
  | debugLevel
  | warningLevel
  | criticalLevel
  deriving DecidableEq

inductive ExitStatus where
  | normalExit
  | crashExit
  deriving DecidableEq

def ExitStatus.toInt : ExitStatus → ℤ
  | .normalExit => 0
  | .crashExit => 1

structure QProcess where
  object : ℕ
  program : String
  arguments : List String
  objectName : String
  /-- 0 if the process did not start. -/
  processId : ℕ
  /-- The process itself; only its pid is known to the program. -/
  process : Option ℕ
  deriving DecidableEq

/-- `Controller::Private`: for each service the fields `zygote`, `zygoteTracker` and so on. -/
structure Controller where
  androidRootDir : String
  quitOnError : Bool
  process : Service → Option QProcess
  tracker : Service → Option ProcessTracker
  applications : List QProcess
  applicationTrackers : List ProcessTracker

def Controller.running (c : Controller) (s : Service) : Bool := (c.tracker s).isSome

def Controller.zygoteRunning (c : Controller) : Bool := c.running .zygote
def Controller.installdRunning (c : Controller) : Bool := c.running .installd
def Controller.bootanimationRunning (c : Controller) : Bool := c.running .bootanimation
def Controller.surfaceflingerRunning (c : Controller) : Bool := c.running .surfaceflinger
def Controller.adbdRunning (c : Controller) : Bool := c.running .adbd
def Controller.servicemanagerRunning (c : Controller) : Bool := c.running .servicemanager

inductive Action where
  | start (q : QProcess)
  /-- `kill(pid, SIGTERM)`, and who has the pid; pid 0 is the caller's process group. -/
  | kill (pid : ℕ) (target : Option Process)
  /-- The notification of a service, and what its flag shows at that moment. -/
  | runningChanged (s : Service) (running : Bool)
  | quitOnErrorChanged
  | error (description : String) (errorLevel : ErrorLevel)
  | quitLater (milliseconds : ℕ)
  | print (text : String)
  deriving DecidableEq

structure World where
  os : ProcessTable
  controller : Controller
  /-- The trackers, by address, whose timer was stopped. -/
  stopped : List ℕ
  /-- Every `QProcess` made so far; they are children of the Controller and never deleted. -/
  children : List QProcess
  /-- The processes that `getTrackers` found. -/
  discovered : List ℕ
  nextObject : ℕ
  actions : List Action

namespace World

def emit (w : World) (a : Action) : World := { w with actions := w.actions ++ [a] }

def emitRunningChanged (w : World) (s : Service) : World :=
  w.emit (.runningChanged s (w.controller.running s))

def quitOnError (w : World) : World :=
  if w.controller.quitOnError then w.emit (.quitLater 1000) else w

/-- The tokens of a command line: separated by spaces, quoted by double quotes; three quotes
    in a row stand for a quote. -/
def parseCombinedArgString : List Char → ℕ → Bool → List Char → List String
  | tmp, _, _, [] => if tmp = [] then [] else [String.ofList tmp]
  | tmp, quoteCount, inQuote, c :: cs =>
    if c = '"' then
      if quoteCount + 1 = 3 then parseCombinedArgString (tmp ++ [c]) 0 inQuote cs
      else parseCombinedArgString tmp (quoteCount + 1) inQuote cs
    else
      let inQuote := if quoteCount = 1 then !inQuote else inQuote
      if !inQuote && c.isWhitespace then
        if tmp = [] then parseCombinedArgString [] 0 inQuote cs
        else String.ofList tmp :: parseCombinedArgString [] 0 inQuote cs
      else parseCombinedArgString (tmp ++ [c]) 0 inQuote cs

def cmdline (program : String) (arguments : List String) : String :=
  String.join ((program :: arguments).map (fun arg => arg.push (Char.ofNat 0)))

/-- A `QProcess` with its environment, started. `outcome` is none if the start fails and else
    the pid that the system would like to give. -/
def startProcess (w : World) (program : String) (arguments : List String) (objectName : String)
    (outcome : Option ℕ) : World × QProcess :=
  match outcome with
  | none =>
    let q : QProcess := ⟨w.nextObject, program, arguments, objectName, 0, none⟩
    ({ w with children := q :: w.children, nextObject := w.nextObject + 1 }.emit (.start q), q)
  | some hint =>
    let p := w.os.spawned hint program (cmdline program arguments)
    let q : QProcess := ⟨w.nextObject, program, arguments, objectName, p.pid, some p.serial⟩
    ({ w with
        os := w.os.spawn hint program (cmdline program arguments)
        children := q :: w.children
        nextObject := w.nextObject + 1 }.emit (.start q), q)

def startCommand (w : World) (command : String) (outcome : Option ℕ) : World × QProcess :=
  match parseCombinedArgString [] 0 false command.toList with
  | [] => w.startProcess "" [] "" none
  | program :: arguments => w.startProcess program arguments "" outcome

def newTracker (w : World) (processId : ℕ) : World × ProcessTracker :=
  ({ w with nextObject := w.nextObject + 1 },
    ProcessTracker.new w.os w.nextObject processId true)

/-- The end of every start function: the process and a connected tracker are stored, and the
    change is announced. -/
def trackService (s : Service) (started : World × QProcess) : World :=
  let tracked := started.1.newTracker started.2.processId
  { tracked.1 with
    controller := { tracked.1.controller with
      process := Function.update tracked.1.controller.process s (some started.2)
      tracker := Function.update tracked.1.controller.tracker s (some tracked.2) } }
    |>.emitRunningChanged s

def startZygote (w : World) (outcome : Option ℕ) : World :=
  if w.controller.zygoteRunning then w
  else trackService .zygote
    (w.startProcess (w.controller.androidRootDir ++ "/system/bin/shashlik_launcher")
      ["-Xzygote", w.controller.androidRootDir ++ "/system/bin/", "--zygote",
        "--start-system-server"] "" outcome)

def startSurfaceflinger (w : World) (outcome : Option ℕ) : World :=
  if w.controller.surfaceflingerRunning then w
  else trackService .surfaceflinger
    (w.startCommand (w.controller.androidRootDir ++ "/system/bin/surfaceflinger") outcome)

def startServicemanager (w : World) (outcome : Option ℕ) : World :=
  if w.controller.servicemanagerRunning then
    (w.emit (.error "A service manager is already running. If you believe this to be in error, please stop all Shashlik services and try again."
      .criticalLevel)).quitOnError
  else trackService .servicemanager
    (w.startCommand (w.controller.androidRootDir ++ "/system/bin/servicemanager") outcome)

def startAdbd (w : World) (outcome : Option ℕ) : World :=
  if w.controller.adbdRunning then w
  else trackService .adbd
    (w.startCommand (w.controller.androidRootDir ++ "/system/bin/adbd") outcome)

def startInstalld (w : World) (outcome : Option ℕ) : World :=
  if w.controller.installdRunning then w
  else trackService .installd
    (w.startCommand (w.controller.androidRootDir ++ "/system/bin/installd") outcome)

def startBootanimation (w : World) (outcome : Option ℕ) : World :=
  if w.controller.bootanimationRunning then w
  else trackService .bootanimation
    (w.startCommand (w.controller.androidRootDir ++ "/system/bin/bootanimation") outcome)

def startService : Service → World → Option ℕ → World
  | .zygote => startZygote
  | .installd => startInstalld
  | .bootanimation => startBootanimation
  | .surfaceflinger => startSurfaceflinger
  | .adbd => startAdbd
  | .servicemanager => startServicemanager

def startOrder : List Service := [.servicemanager, .installd, .surfaceflinger, .zygote, .adbd]

def start (w : World) (outcomes : Service → Option ℕ) : World :=
  startOrder.foldl (fun w s => startService s w (outcomes s)) w

def killProcess (w : World) (t : ProcessTracker) : World :=
  w.emit (.kill t.processId (w.os.find t.processId))

def stopOrder : List Service :=
  [.surfaceflinger, .installd, .bootanimation, .servicemanager, .adbd, .zygote]

def killService (w : World) (s : Service) : World :=
  match w.controller.tracker s with
  | none => w
  | some t => w.killProcess t

/-- The trackers of the applications are killed, deleted and forgotten; those of the services
    stay. -/
def stop (w : World) : World :=
  let w := stopOrder.foldl killService w
  let w := w.controller.applicationTrackers.foldl killProcess w
  { w with controller := { w.controller with applicationTrackers := [] } }

def restart (w : World) (outcomes : Service → Option ℕ) : World := w.stop.start outcomes

def localFile (apkFile : String) : String :=
  if "file://".toList.isPrefixOf apkFile.toLower.toList then String.ofList (apkFile.toList.drop 7)
  else apkFile

def runApk (w : World) (apkFile : String) (fileExists : String → Bool) (outcome : Option ℕ) :
    World :=
  let apkFile := localFile apkFile
  if fileExists apkFile then
    let started := w.startProcess (w.controller.androidRootDir ++ "/system/bin/shashlik_launcher")
      [w.controller.androidRootDir ++ "/system/bin/", "com.android.commands.launch.Launch", apkFile]
      (String.ofList ((apkFile.toList.splitOn '/').getLastD [])) outcome
    let tracked := started.1.newTracker started.2.processId
    { tracked.1 with
      controller := { tracked.1.controller with
        applications := tracked.1.controller.applications ++ [started.2]
        applicationTrackers := tracked.1.controller.applicationTrackers ++ [tracked.2] } }
  else w

def runAM (w : World) (arguments : String) (outcome : Option ℕ) : World :=
  let started := w.startProcess (w.controller.androidRootDir ++ "/system/bin/shashlik_launcher")
    [w.controller.androidRootDir ++ "/system/bin/", "com.android.commands.am.Am", arguments]
    "ActivityManager" outcome
  { started.1 with
    controller := { started.1.controller with
      applications := started.1.controller.applications ++ [started.2] } }

def setQuitOnError (w : World) (newValue : Bool) : World :=
  { w with controller := { w.controller with quitOnError := newValue } }.emit .quitOnErrorChanged

def isProcess (w : World) (s : Service) (proc : QProcess) : Bool :=
  (w.controller.process s).map QProcess.object = some proc.object

def processFinished (w : World) (proc : QProcess) (exitCode : ℤ) (exitStatus : ExitStatus) :
    World :=
  if w.isProcess .zygote proc then
    (w.emit (.error "Zygote has exited - if zygote exits, everything should be killed!"
      .criticalLevel)).stop.quitOnError
  else if w.isProcess .servicemanager proc then
    (w.emit (.error "The service manager has exited - if this happens, nothing will work and we should just cut our losses and quit everything else."
      .criticalLevel)).stop.quitOnError
  else if w.isProcess .surfaceflinger proc then
    (w.emit (.error ("SurfaceFlinger has exited. This is a terrible thing! We should try and restart it and see if that helps (and then quit if it still doesn't). Exit code "
      ++ toString exitCode ++ " and exit status " ++ toString exitStatus.toInt)
      .criticalLevel)).quitOnError
  else if w.isProcess .installd proc then
    w.emit (.error "The Installer daemon has exited. We'll just let that slide." .warningLevel)
  else if w.isProcess .bootanimation proc then
    w.emit (.error ("The boot animation has exited. We'll just let that slide. Exit code was "
      ++ toString exitCode ++ " and exit status was " ++ toString exitStatus.toInt) .warningLevel)
  else if w.isProcess .adbd proc then
    w.emit (.error "The android debugger daemon has exited. We'll just let that slide."
      .warningLevel)
  else if w.controller.applications.any (fun q => q.object = proc.object) then
    -- the source compares the exit code with a value of `ExitStatus`
    (if exitCode = ExitStatus.crashExit.toInt then
      w.emit (.error ("The application " ++ proc.objectName ++
        " has quit unexpectedly. Something gone done blown up.") .warningLevel)
    else w.emit (.print ("Normal exit from application " ++ proc.objectName ++ "\n"))).quitOnError
  else w.emit (.error (proc.program ++ " has exited") .warningLevel)

def exitOrder : List Service :=
  [.installd, .bootanimation, .adbd, .servicemanager, .surfaceflinger, .zygote]

def isTracker (w : World) (sender : ℕ) (s : Service) : Bool :=
  (w.controller.tracker s).map ProcessTracker.object = some sender

def clearTracker (w : World) (s : Service) : World :=
  { w with
    controller := { w.controller with tracker := Function.update w.controller.tracker s none } }

/-- The first application tracker with a pid goes, whichever tracker it was that reported. -/
def removeApplicationTracker (w : World) : World :=
  match w.controller.applicationTrackers.find? (fun t => t.processId ≠ 0) with
  | none => w
  | some t =>
    { w with
      controller := { w.controller with
        applicationTrackers := w.controller.applicationTrackers.filter
          (fun t' => t'.object ≠ t.object) } }

def processExited (w : World) (sender : ℕ) : World :=
  match exitOrder.find? (w.isTracker sender) with
  | some s => (w.clearTracker s).emitRunningChanged s
  | none => w.removeApplicationTracker

def heldTrackers (w : World) : List ProcessTracker :=
  stopOrder.filterMap w.controller.tracker ++ w.controller.applicationTrackers

/-- The timer of a tracker. Trackers that the Controller does not refer to are deleted, or
    have nobody to report to. -/
def fileWatch (w : World) (object : ℕ) : World :=
  match w.heldTrackers.find? (fun t => t.object = object) with
  | none => w
  | some t =>
    if object ∈ w.stopped ∨ t.watchFileExists w.os then w
    else
      let w := { w with stopped := object :: w.stopped }
      if t.connected then w.processExited object else w

/-! ### Construction -/

def discover (w : World) (executableFilePath : String) : World × List ProcessTracker :=
  let trackers := getTrackers w.os w.nextObject executableFilePath
  ({ w with
      nextObject := w.nextObject + trackers.length
      discovered := w.discovered ++ trackers.filterMap ProcessTracker.process }, trackers)

def setTracker (w : World) (s : Service) (t : ProcessTracker) : World :=
  { w with
    controller := { w.controller with tracker := Function.update w.controller.tracker s (some t) } }

/-- Only the first of several instances is kept. -/
def discoverService (w : World) (executable : Service × String) : World :=
  let found := w.discover (w.controller.androidRootDir ++ executable.2)
  match found.2 with
  | [] => found.1
  | t :: _ => found.1.setTracker executable.1 t

def isZygote (uninitialised : Bool) (t : ProcessTracker) : Bool :=
  if "-Xzygote" ∈ t.arguments then true else uninitialised

/-- `uninitialised` is what the local `isZygote` holds before it is set. -/
def discoverLauncher (uninitialised : ℕ → Bool) (w : World) (t : ProcessTracker) : World :=
  if isZygote (uninitialised t.object) t then w.setTracker .zygote t
  else { w with
    controller := { w.controller with
      applicationTrackers := w.controller.applicationTrackers ++ [t] } }

def initial (os : ProcessTable) (androidRootDir : String) : World where
  os := os
  controller := ⟨androidRootDir, true, fun _ => none, fun _ => none, [], []⟩
  stopped := []
  children := []
  discovered := []
  nextObject := 0
  actions := []

def executables : List (Service × String) :=
  [(.servicemanager, "/system/bin/servicemanager"), (.surfaceflinger, "/system/bin/surfaceflinger"),
    (.installd, "/system/bin/installd"), (.bootanimation, "/system/bin/bootanimation"),
    (.adbd, "/system/bin/adbd")]

def construct (os : ProcessTable) (androidRootDir : String) (uninitialised : ℕ → Bool) : World :=
  let w := executables.foldl discoverService (initial os androidRootDir)
  let launchers := w.discover (w.controller.androidRootDir ++ "/system/bin/shashlik_launcher")
  launchers.2.foldl (discoverLauncher uninitialised) launchers.1

end World

inductive Event where
  | start (s : Service) (outcome : Option ℕ)
  | startAll (outcomes : Service → Option ℕ)
  | stop
  | restart (outcomes : Service → Option ℕ)
  | runApk (apkFile : String) (fileExists : String → Bool) (outcome : Option ℕ)
  | runAM (arguments : String) (outcome : Option ℕ)
  | setQuitOnError (newValue : Bool)
  | fileWatch (object : ℕ)
  /-- The exit of a child is noticed: it is reaped and `finished` is emitted. -/
  | finished (object : ℕ) (exitCode : ℤ) (exitStatus : ExitStatus)
  | exit (pid : ℕ)
  | reap (pid : ℕ)
  | foreign (hint : ℕ) (exe cmdline : String)

namespace World

def exitedChild (w : World) (object : ℕ) : Option (QProcess × Process) :=
  (w.children.find? (fun q => q.object = object)).bind (fun q =>
    (w.os.processes.find? (fun p => q.process = some p.serial ∧ p.alive = false)).map
      (fun p => (q, p)))

def childFinished (w : World) (object : ℕ) (exitCode : ℤ) (exitStatus : ExitStatus) : World :=
  match w.exitedChild object with
  | none => w
  | some (q, p) => { w with os := w.os.reap p.serial }.processFinished q exitCode exitStatus

def reapForeign (w : World) (pid : ℕ) : World :=
  match w.os.find pid with
  | none => w
  | some p =>
    if p.alive ∨ w.children.any (fun q => q.process = some p.serial) then w
    else { w with os := w.os.reap p.serial }

def perform (w : World) : Event → World
  | .start s outcome => startService s w outcome
  | .startAll outcomes => w.start outcomes
  | .stop => w.stop
  | .restart outcomes => w.restart outcomes
  | .runApk apkFile fileExists outcome => w.runApk apkFile fileExists outcome
  | .runAM arguments outcome => w.runAM arguments outcome
  | .setQuitOnError newValue => w.setQuitOnError newValue
  | .fileWatch object => w.fileWatch object
  | .finished object exitCode exitStatus => w.childFinished object exitCode exitStatus
  | .exit pid => { w with os := w.os.exit pid }
  | .reap pid => w.reapForeign pid
  | .foreign hint exe cmdline => { w with os := w.os.spawn hint exe cmdline }

def step (w : World) (e : Event) : World := { w with actions := [] }.perform e

end World

end Shashlik.ServiceController
