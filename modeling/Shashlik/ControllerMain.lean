import Shashlik.ControllerRestart

set_option autoImplicit false

/-!
# The controller program

`main` from the point where the Controller is made: the one branch that the command line
chooses. With an apk it wants Zygote, the service manager and SurfaceFlinger running, and
restarts everything if one of them is not. `kill` does not wait: what `stop()` has signalled
may end at any time from then on.
-/
namespace Shashlik.ControllerMain
open ProcessTables ProcessTrackers ServiceController World ControllerActions ControllerRuns
open ControllerRestart

structure CommandLine where
  apkfile : List String
  launcham : Option String
  start : Bool
  zygote : Bool
  surfaceflinger : Bool
  servicemanager : Bool
  installd : Bool
  adbd : Bool
  restart : Bool
  stop : Bool
  status : Bool

/-- What the system answers: the outcome of each start, the file system, and the processes, by
    serial, that have ended when `restart()` comes to `start()` and when `runApk` is called. -/
structure Answers where
  services : Service → Option ℕ
  application : Option ℕ
  fileExists : String → Bool
  endedByStart : List ℕ
  endedByRun : List ℕ

structure Finish where
  world : World
  calledRunApk : Option World

def environmentRunning (c : Controller) : Bool :=
  !(!c.zygoteRunning || !c.servicemanagerRunning || !c.surfaceflingerRunning)

def signalTarget : Action → Option ℕ
  | .kill _ (some p) => some p.serial
  | _ => none

def signalled (w : World) : List ℕ := w.actions.filterMap signalTarget

/-- Of the processes that were signalled, those in the list have ended. -/
def endSignalled (sent ended : List ℕ) (os : ProcessTable) : ProcessTable :=
  (ended.filter (· ∈ sent)).foldl ProcessTable.reap os

def afterEnds (w : World) (sent ended : List ℕ) : World :=
  { w with os := endSignalled sent ended w.os }

/-- `restart()`, and what its signals have done by the time that `main` goes on. -/
def restartAmidEnds (w : World) (answers : Answers) : World :=
  let sent := signalled w.stop
  afterEnds ((afterEnds w.stop sent answers.endedByStart).start answers.services) sent
    answers.endedByRun

/-- The branch for an apk. The error does not keep the source from going on to `runApk`. -/
def launchApk (w : World) (apk : String) (answers : Answers) : Finish :=
  let w := if environmentRunning w.controller then w else restartAmidEnds w answers
  let w :=
    if environmentRunning w.controller then w
    else (w.emit (.error "We are unable to start an Android environment to run your application inside. Please check your installation and try again."
      .criticalLevel)).emit (.quitLater 0)
  ⟨w.runApk apk answers.fileExists answers.application, some w⟩

/-- The lines of `--status`; the flags of Zygote and SurfaceFlinger are exchanged. -/
def statusLines (c : Controller) : List (String × Bool) :=
  [("Status of servicemanager:", c.servicemanagerRunning),
    ("Status of zygote:", c.surfaceflingerRunning),
    ("Status of surfaceflinger:", c.zygoteRunning),
    ("Status of adbd:", c.adbdRunning),
    ("Status of installd:", c.installdRunning)]

def printStatus (w : World) : World :=
  (statusLines w.controller).foldl
    (fun w line => w.emit (.print (line.1 ++ " " ++ toString line.2))) w

def main (w : World) (parser : CommandLine) (answers : Answers) : Finish :=
  match parser.apkfile with
  | apk :: _ => launchApk w apk answers
  | [] =>
    match parser.launcham with
    | some amargs => ⟨w.runAM amargs answers.application, none⟩
    | none =>
      if parser.start then ⟨w.start answers.services, none⟩
      else if parser.zygote then ⟨w.startZygote (answers.services .zygote), none⟩
      else if parser.surfaceflinger then
        ⟨w.startSurfaceflinger (answers.services .surfaceflinger), none⟩
      else if parser.servicemanager then
        ⟨w.startServicemanager (answers.services .servicemanager), none⟩
      else if parser.installd then ⟨w.startInstalld (answers.services .installd), none⟩
      else if parser.adbd then ⟨w.startAdbd (answers.services .adbd), none⟩
      else if parser.restart then ⟨w.restart answers.services, none⟩
      else if parser.stop then ⟨w.stop.emit (.quitLater 0), none⟩
      else if parser.status then ⟨printStatus w, none⟩
      else ⟨w.setQuitOnError false, none⟩

def environment : List Service := [.zygote, .servicemanager, .surfaceflinger]

theorem environmentRunning_iff (c : Controller) :
    environmentRunning c = true ↔ ∀ s ∈ environment, c.running s = true := by
  simp [environmentRunning, environment, Controller.zygoteRunning,
    Controller.servicemanagerRunning, Controller.surfaceflingerRunning, and_assoc]

/-- The tracker of the service belongs to a process that is alive. -/
def Backed (w : World) (s : Service) : Prop :=
  ∃ t serial, w.controller.tracker s = some t ∧ t.process = some serial ∧ w.os.Alive serial

/-- `runApk` is called in a live environment only; otherwise the error is reported and nothing
    is launched. -/
def LaunchesIntoLiveEnvironment (before : World) (finish : Finish) : Prop :=
  match finish.calledRunApk with
  | some w => ∀ s ∈ environment, Backed w s
  | none => (∃ description, .error description .criticalLevel ∈ finish.world.actions) ∧
      finish.world.controller.applications = before.controller.applications

theorem tracker_startService {w : World} {s : Service} (h : w.controller.tracker s = none)
    (outcome : Option ℕ) :
    ∃ t, (startService s w outcome).controller.tracker s = some t ∧
      t.process = (launch s w outcome).2.process := by
  rw [startService_of_not_running s w outcome (running_eq_false_iff.mpr h)]
  exact ⟨_, trackService_tracker _ _, (launch_started s w outcome).tracker_process _ _⟩

theorem backed_startService {w : World} {s : Service} (h : w.controller.tracker s = none)
    (hint : ℕ) : ∃ t serial, (startService s w (some hint)).controller.tracker s = some t ∧
      t.process = some serial ∧ w.os.nextSerial ≤ serial ∧
      (startService s w (some hint)).os.Alive serial := by
  obtain ⟨t, ht, hprocess⟩ := tracker_startService h (some hint)
  obtain ⟨q, serial, hq, hserial, hge, halive⟩ := newProcess_startService h hint
  refine ⟨t, serial, ht, ?_, hge, halive⟩
  rw [startService_of_not_running s w (some hint) (running_eq_false_iff.mpr h),
    trackService_process, Option.some.injEq] at hq
  rw [hprocess, hq]
  exact hserial

theorem launch_none_process (s : Service) (w : World) : (launch s w none).2.process = none := by
  have hcommand : ∀ command, (w.startCommand command none).2.process = none := by
    intro command
    unfold startCommand
    split <;> rfl
  cases s
  case zygote => rfl
  all_goals exact hcommand _

theorem alive_endSignalled_iff (sent ended : List ℕ) (os : ProcessTable) (serial : ℕ) :
    (endSignalled sent ended os).Alive serial ↔
      os.Alive serial ∧ ¬ (serial ∈ ended ∧ serial ∈ sent) := by
  have hfold : ∀ (ended : List ℕ) (os : ProcessTable),
      (ended.foldl ProcessTable.reap os).Alive serial ↔ os.Alive serial ∧ serial ∉ ended := by
    intro ended
    induction ended with
    | nil => simp
    | cons serial' ended ih =>
      intro os
      rw [List.foldl_cons, ih, ProcessTable.alive_reap_iff, List.mem_cons, not_or, and_assoc]
  rw [endSignalled, hfold, List.mem_filter, decide_eq_true_iff]

theorem endSignalled_nextSerial (sent ended : List ℕ) (os : ProcessTable) :
    (endSignalled sent ended os).nextSerial = os.nextSerial := by
  unfold endSignalled
  induction ended.filter (· ∈ sent) generalizing os with
  | nil => rfl
  | cons serial ended ih => exact ih (os.reap serial)

theorem mem_signalled_stop (w : World) (serial : ℕ) :
    serial ∈ signalled w.stop ↔ serial ∈ signalled w ∨
      ∃ t ∈ w.heldTrackers, (w.os.find t.processId).map Process.serial = some serial := by
  have htarget : ∀ t, signalTarget (killAction w.os t) =
      (w.os.find t.processId).map Process.serial := by
    intro t
    unfold killAction
    cases w.os.find t.processId <;> rfl
  rw [signalled, stop_eq]
  simp only [List.filterMap_append, List.mem_append, List.mem_filterMap, List.mem_map,
    exists_exists_and_eq_and, htarget, signalled]

theorem lt_of_mem_signalled_stop {w : World} (hactions : w.actions = []) {serial : ℕ}
    (h : serial ∈ signalled w.stop) : serial < w.os.nextSerial := by
  rcases (mem_signalled_stop w serial).mp h with h | ⟨t, _, hfind⟩
  · rw [signalled, hactions] at h
    exact absurd h List.not_mem_nil
  · obtain ⟨p, hp, rfl⟩ := Option.map_eq_some_iff.mp hfind
    exact w.os.serial_lt p ((w.os.find_eq_some_iff _ p).mp hp).1

theorem backed_restart_idle_iff {w : World} (hactions : w.actions = []) {s : Service}
    (hmem : s ∈ startOrder) (hs : w.controller.tracker s = none) (answers : Answers) :
    Backed (restartAmidEnds w answers) s ↔ answers.services s ≠ none := by
  obtain ⟨w₁, hw₁, hle, _, htracker, halive⟩ := startAll_idle answers.services startOrder
    startOrder_nodup (afterEnds w.stop (signalled w.stop) answers.endedByStart) hmem
    ((congrFun (restart_tracker w) s).trans hs)
  constructor
  · rintro ⟨t, serial, ht, hserial, _⟩ hnone
    rw [hnone] at htracker
    obtain ⟨t', ht', hprocess⟩ := tracker_startService hw₁ none
    obtain rfl := Option.some.inj ((htracker.trans ht').symm.trans ht)
    rw [hprocess, launch_none_process] at hserial
    exact absurd hserial (by simp)
  · intro hsome
    obtain ⟨hint, hhint⟩ := Option.ne_none_iff_exists'.mp hsome
    obtain ⟨t, serial, ht, hserial, hge, ha⟩ := backed_startService hw₁ hint
    rw [← hhint] at ht ha
    refine ⟨t, serial, htracker.trans ht, hserial, ?_⟩
    refine (alive_endSignalled_iff _ _ _ _).mpr ⟨halive serial ha, fun hended => ?_⟩
    have hlt := lt_of_mem_signalled_stop hactions hended.2
    have hnext : (afterEnds w.stop (signalled w.stop) answers.endedByStart).os.nextSerial =
        w.os.nextSerial :=
      (endSignalled_nextSerial _ _ _).trans (congrArg ProcessTable.nextSerial (restart_os w))
    omega

theorem not_backed_restart_running {w : World} {s : Service} {t : ProcessTracker}
    (ht : w.controller.tracker s = some t) (htracks : Tracks w.os t) {serial : ℕ}
    (hserial : t.process = some serial) (halive : w.os.Alive serial) (answers : Answers) :
    ¬ Backed (restartAmidEnds w { answers with endedByRun := [serial] }) s := by
  rintro ⟨t', serial', ht', hserial', halive'⟩
  have hstop : w.stop.controller.tracker s = some t := (congrFun (restart_tracker w) s).trans ht
  have hkeeps := startAll_keeps answers.services startOrder
    (afterEnds w.stop (signalled w.stop) answers.endedByStart)
    (hstop.trans_ne (Option.some_ne_none t))
  obtain rfl := Option.some.inj (ht'.symm.trans (hkeeps.2.trans hstop))
  obtain rfl := Option.some.inj (hserial.symm.trans hserial')
  obtain ⟨p, hp, hpserial, _⟩ := htracks.find hserial halive
  have hsent : serial ∈ signalled w.stop := by
    refine (mem_signalled_stop w serial).mpr (Or.inr ⟨t', mem_heldTrackers.mpr (Or.inl ⟨s, ht⟩), ?_⟩)
    rw [hp, Option.map_some, hpserial]
  exact ((alive_endSignalled_iff _ _ _ _).mp halive').2 ⟨List.mem_singleton_self _, hsent⟩

theorem actions_construct (os : ProcessTable) (androidRootDir : String)
    (uninitialised : ℕ → Bool) : (construct os androidRootDir uninitialised).actions = [] := by
  have hlauncher : ∀ (ts : List ProcessTracker) (w : World),
      (ts.foldl (discoverLauncher uninitialised) w).actions = w.actions := by
    intro ts
    induction ts with
    | nil => exact fun w => rfl
    | cons t ts ih =>
      intro w
      rw [List.foldl_cons, ih, discoverLauncher]
      split <;> rfl
  have hservice : ∀ (es : List (Service × String)) (w : World),
      (es.foldl discoverService w).actions = w.actions := by
    intro es
    induction es with
    | nil => exact fun w => rfl
    | cons e es ih =>
      intro w
      rw [List.foldl_cons, ih, discoverService]
      split <;> rfl
  rw [construct, hlauncher, discover, hservice]
  rfl

theorem launchApk_called (w : World) (apk : String) (answers : Answers) :
    ∃ w', (launchApk w apk answers).calledRunApk = some w' ∧
      (environmentRunning w.controller = true → ∀ s, Backed w' s ↔ Backed w s) ∧
      (environmentRunning w.controller = false →
        ∀ s, Backed w' s ↔ Backed (restartAmidEnds w answers) s) := by
  refine ⟨_, rfl, ?_, ?_⟩
  · intro hrunning s
    simp only [hrunning, ↓reduceIte]
  · intro hrunning s
    simp only [hrunning, Bool.false_eq_true, ↓reduceIte]
    split <;> exact Iff.rfl

theorem launches_idle_iff {w : World} (hactions : w.actions = [])
    (hidle : ∀ s ∈ environment, w.controller.running s = false) (apk : String)
    (answers : Answers) :
    LaunchesIntoLiveEnvironment w (launchApk w apk answers) ↔
      ∀ s ∈ environment, answers.services s ≠ none := by
  have hstart : ∀ s ∈ environment, s ∈ startOrder := by decide
  have henv : environmentRunning w.controller = false := by
    rw [← Bool.not_eq_true, environmentRunning_iff]
    intro hall
    exact absurd ((hidle .zygote (by decide)).symm.trans (hall .zygote (by decide))) (by simp)
  obtain ⟨w', hcalled, _, hrestart⟩ := launchApk_called w apk answers
  rw [LaunchesIntoLiveEnvironment, hcalled]
  apply forall₂_congr
  intro s hs
  rw [hrestart henv]
  exact backed_restart_idle_iff hactions (hstart s hs) (running_eq_false_iff.mp (hidle s hs))
    answers

def apkCommand : CommandLine :=
  ⟨["app.apk"], none, false, false, false, false, false, false, false, false, false⟩

end Shashlik.ControllerMain
