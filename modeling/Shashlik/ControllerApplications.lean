import Shashlik.ControllerSignals

set_option autoImplicit false

/-!
# The trackers of the applications

Every application that is launched has a tracker until `stop()` is called or the exit of the
application is reported. The slot that hears the report does not look at the tracker that
sent it, but drops the first one that has a pid.
-/
namespace Shashlik.ControllerApplications
open ProcessTables ProcessTrackers ServiceController World ControllerActions ControllerRuns
  ControllerSignals SystemRuns

def reporting (w : World) (object : ℕ) : Option ProcessTracker :=
  (w.controller.applicationTrackers.find? (fun t => t.object = object)).filter (fun t =>
    object ∉ w.stopped ∧ t.watchFileExists w.os = false ∧ t.connected)

def firstWithPid (w : World) : Option ProcessTracker :=
  w.controller.applicationTrackers.find? (fun t => t.processId ≠ 0)

/-- The tracker that a launched application has to get: a new object behind its `QProcess`,
    connected, with the pid of the application. An application that could not be started has
    pid 0 and no process. -/
def launchedTracker (w : World) (apkFile : String) (outcome : Option ℕ) : ProcessTracker where
  object := w.nextObject + 1
  processId := outcome.elim 0 w.os.newPid
  arguments := outcome.elim [] (fun _ => readArguments []
    (cmdline (w.controller.androidRootDir ++ "/system/bin/shashlik_launcher")
      [w.controller.androidRootDir ++ "/system/bin/", "com.android.commands.launch.Launch",
        apkFile]).toList)
  connected := true
  process := outcome.map (fun _ => w.os.nextSerial)

def launchedTrackers (w : World) (apkFile : String) (fileExists : String → Bool)
    (outcome : Option ℕ) : List ProcessTracker :=
  if fileExists (localFile apkFile) then [launchedTracker w (localFile apkFile) outcome] else []

/-- What the list of trackers has to be after an event: a call of `stop()` empties it, a
    launch adds the tracker of the application, and a report removes the one that sent it. -/
def expectedAfter (w : World) (e : Event) (expected : List ProcessTracker) :
    List ProcessTracker :=
  match stopTable w e, e with
  | some _, _ => []
  | none, .runApk apkFile fileExists outcome =>
    expected ++ launchedTrackers w apkFile fileExists outcome
  | none, .fileWatch object =>
    match reporting w object with
    | none => expected
    | some t => expected.filter (fun t' => t'.object ≠ t.object)
  | none, _ => expected

def historyStep (h : World × List ProcessTracker) (e : Event) : World × List ProcessTracker :=
  (h.1.step e, expectedAfter h.1 e h.2)

/-- At first these are the applications that the constructor found. -/
def expectedTrackers (os : ProcessTable) (androidRootDir : String) (uninitialised : ℕ → Bool)
    (es : List Event) : List ProcessTracker :=
  (run historyStep (construct os androidRootDir uninitialised,
    (construct os androidRootDir uninitialised).controller.applicationTrackers) es).2

def Matches (w : World) (expected : List ProcessTracker) : Prop :=
  ∀ t, t ∈ w.controller.applicationTrackers ↔ t ∈ expected

/-- If an application tracker reports, it is the first one that has a pid. -/
def ReportsFirst (w : World) (e : Event) : Prop :=
  ∀ object t, e = .fileWatch object → reporting w object = some t →
    (firstWithPid w).map ProcessTracker.object = some t.object

/-! ### What the events do to the list -/

theorem OnlyTold.applications {w w' : World} (h : OnlyTold w w') :
    w'.controller.applicationTrackers = w.controller.applicationTrackers := by
  obtain ⟨actions, rfl, _⟩ := h
  rfl

theorem applications_stop (w : World) : w.stop.controller.applicationTrackers = [] := by
  rw [stop_eq]

theorem applications_startService (s : Service) (w : World) (outcome : Option ℕ) :
    (startService s w outcome).controller.applicationTrackers =
      w.controller.applicationTrackers := by
  cases hrunning : w.controller.running s with
  | true => exact OnlyTold.applications (startService_of_running s w outcome hrunning)
  | false =>
    rw [startService_of_not_running s w outcome hrunning]
    exact (congrArg Controller.applicationTrackers (launch_started s w outcome).controller :)

theorem applications_start (w : World) (outcomes : Service → Option ℕ) :
    (w.start outcomes).controller.applicationTrackers = w.controller.applicationTrackers := by
  have hfold : ∀ (ss : List Service) (w : World),
      (ss.foldl (fun w s => startService s w (outcomes s)) w).controller.applicationTrackers =
        w.controller.applicationTrackers := by
    intro ss
    induction ss with
    | nil => exact fun w => rfl
    | cons s ss ih => exact fun w => (ih _).trans (applications_startService s w (outcomes s))
  exact hfold startOrder w

theorem applications_processFinished (w : World) (q : QProcess) (exitCode : ℤ)
    (exitStatus : ExitStatus) :
    (w.processFinished q exitCode exitStatus).controller.applicationTrackers =
      if stopsEverything w q then [] else w.controller.applicationTrackers := by
  have hcases := processFinished_cases w q exitCode exitStatus
  split at hcases
  · rename_i hstops
    obtain ⟨w₁, _, htold⟩ := hcases
    rw [if_pos hstops, OnlyTold.applications htold, applications_stop]
  · rename_i hgoes
    rw [if_neg hgoes, OnlyTold.applications hcases]

theorem applications_childFinished (w : World) (object : ℕ) (exitCode : ℤ)
    (exitStatus : ExitStatus) :
    (w.childFinished object exitCode exitStatus).controller.applicationTrackers =
      (stopTable w (.finished object exitCode exitStatus)).elim w.controller.applicationTrackers
        (fun _ => []) := by
  simp only [childFinished, stopTable]
  cases w.exitedChild object with
  | none => rfl
  | some r =>
    obtain ⟨q, p⟩ := r
    simp only
    rw [applications_processFinished]
    change (if stopsEverything w q = true then _ else _) = _
    split <;> rfl

theorem applications_removeApplicationTracker (w : World) :
    w.removeApplicationTracker.controller.applicationTrackers =
      (firstWithPid w).elim w.controller.applicationTrackers (fun t =>
        w.controller.applicationTrackers.filter (fun t' => t'.object ≠ t.object)) := by
  unfold removeApplicationTracker firstWithPid
  cases w.controller.applicationTrackers.find? (fun t => t.processId ≠ 0) <;> rfl

theorem reporting_spec {w : World} {object : ℕ} {t : ProcessTracker}
    (h : reporting w object = some t) :
    t ∈ w.controller.applicationTrackers ∧ t.object = object := by
  have hfind := (Option.filter_eq_some_iff.mp h).1
  exact ⟨List.mem_of_find?_eq_some hfind, by simpa using List.find?_some hfind⟩

theorem fileWatch_of_application {w : World} (h : Coherent w) {object : ℕ} {t : ProcessTracker}
    (hfind : w.controller.applicationTrackers.find? (fun t => t.object = object) = some t) :
    w.fileWatch object =
      if object ∈ w.stopped ∨ t.watchFileExists w.os then w
      else if t.connected then { w with stopped := object :: w.stopped }.removeApplicationTracker
      else { w with stopped := object :: w.stopped } := by
  have hmem := List.mem_of_find?_eq_some hfind
  have hobject : t.object = object := by simpa using List.find?_some hfind
  have hservice : ∀ s t', w.controller.tracker s = some t' → t'.object ≠ object :=
    fun s t' hs => hobject ▸ h.apart s t' hs t hmem
  have hnone : (stopOrder.filterMap w.controller.tracker).find? (fun t => t.object = object) =
      none := by
    rw [List.find?_eq_none]
    intro t' ht'
    obtain ⟨s, _, hs⟩ := List.mem_filterMap.mp ht'
    simpa using hservice s t' hs
  have hheld : w.heldTrackers.find? (fun t => t.object = object) = some t := by
    rw [heldTrackers, List.find?_append, hnone, hfind]
    rfl
  have hexited : { w with stopped := object :: w.stopped }.processExited object =
      { w with stopped := object :: w.stopped }.removeApplicationTracker := by
    rcases processExited_cases { w with stopped := object :: w.stopped } object with
      ⟨s, t', ht', hobject', _⟩ | ⟨_, heq⟩
    · exact absurd hobject' (hservice s t' ht')
    · exact heq
  unfold fileWatch
  rw [hheld]
  simp only
  rw [hexited]

theorem applications_fileWatch_of_none {w : World} {object : ℕ}
    (hfind : w.controller.applicationTrackers.find? (fun t => t.object = object) = none) :
    (w.fileWatch object).controller.applicationTrackers = w.controller.applicationTrackers := by
  rcases fileWatch_cases w object with heq | ⟨t, ht, hobject, _, _, heq⟩
  · rw [heq]
  · rw [heq]
    split
    · rcases processExited_cases { w with stopped := object :: w.stopped } object with
        ⟨s, t', _, _, heq'⟩ | ⟨hnone, _⟩
      · rw [heq']
        rfl
      · rcases mem_heldTrackers.mp ht with ⟨s, hs⟩ | happ
        · exact absurd hobject (hnone s t hs)
        · exact absurd hobject (by simpa using List.find?_eq_none.mp hfind t happ)
    · rfl

theorem applications_fileWatch {w : World} (h : Coherent w) (object : ℕ) :
    (w.fileWatch object).controller.applicationTrackers =
      (reporting w object).elim w.controller.applicationTrackers
        (fun _ => w.removeApplicationTracker.controller.applicationTrackers) := by
  cases hfind : w.controller.applicationTrackers.find? (fun t => t.object = object) with
  | none =>
    rw [applications_fileWatch_of_none hfind, reporting, hfind]
    rfl
  | some t =>
    rw [fileWatch_of_application h hfind, reporting, hfind]
    by_cases hquiet : object ∈ w.stopped ∨ t.watchFileExists w.os = true
    · rw [if_pos hquiet, Option.filter_some, if_neg]
      · rfl
      · rcases hquiet with hstopped | hexists
        · simp [hstopped]
        · simp [hexists]
    · rw [not_or, Bool.not_eq_true] at hquiet
      rw [if_neg (by simp [hquiet.1, hquiet.2])]
      cases hc : t.connected with
      | false =>
        rw [if_neg (by simp), Option.filter_some, if_neg (by simp [hc])]
        rfl
      | true =>
        rw [if_pos rfl, Option.filter_some, if_pos (by simp [hquiet.1, hquiet.2, hc]),
          applications_removeApplicationTracker]
        exact (applications_removeApplicationTracker w).symm

theorem new_launchedTracker (w : World) (apkFile objectName : String) (outcome : Option ℕ) :
    let started := w.startProcess (w.controller.androidRootDir ++ "/system/bin/shashlik_launcher")
      [w.controller.androidRootDir ++ "/system/bin/", "com.android.commands.launch.Launch", apkFile]
      objectName outcome
    ProcessTracker.new started.1.os started.1.nextObject started.2.processId true =
      launchedTracker w apkFile outcome := by
  cases outcome with
  | none =>
    change ProcessTracker.new w.os (w.nextObject + 1) 0 true = _
    rw [ProcessTracker.new, w.os.find_zero]
    rfl
  | some hint =>
    change ProcessTracker.new (w.os.spawn hint _ _) (w.nextObject + 1) (w.os.newPid hint) true = _
    rw [ProcessTracker.new, w.os.find_spawned]
    rfl

/-- A launch adds the tracker of the process that it has started. -/
theorem applications_runApk (w : World) (apkFile : String) (fileExists : String → Bool)
    (outcome : Option ℕ) :
    (w.runApk apkFile fileExists outcome).controller.applicationTrackers =
      w.controller.applicationTrackers ++ launchedTrackers w apkFile fileExists outcome := by
  unfold runApk launchedTrackers
  simp only
  split
  · rw [← new_launchedTracker w (localFile apkFile)]
    have hstarted := startProcess_started w
      (w.controller.androidRootDir ++ "/system/bin/shashlik_launcher")
      [w.controller.androidRootDir ++ "/system/bin/", "com.android.commands.launch.Launch",
        localFile apkFile]
      (String.ofList (((localFile apkFile).toList.splitOn '/').getLastD [])) outcome
    exact (congrArg (·.applicationTrackers ++ _) hstarted.controller :)
  · exact (List.append_nil _).symm

theorem applications_reapForeign (w : World) (pid : ℕ) :
    (w.reapForeign pid).controller.applicationTrackers = w.controller.applicationTrackers := by
  unfold reapForeign
  split
  · rfl
  · split <;> rfl

theorem applications_perform {w : World} (h : Coherent w) (e : Event) :
    (w.perform e).controller.applicationTrackers =
      match stopTable w e, e with
      | some _, _ => []
      | none, .runApk apkFile fileExists outcome =>
        w.controller.applicationTrackers ++ launchedTrackers w apkFile fileExists outcome
      | none, .fileWatch object => (reporting w object).elim w.controller.applicationTrackers
          (fun _ => w.removeApplicationTracker.controller.applicationTrackers)
      | none, _ => w.controller.applicationTrackers := by
  cases e with
  | start s outcome => exact applications_startService s w outcome
  | startAll outcomes => exact applications_start w outcomes
  | stop => exact applications_stop w
  | restart outcomes => exact (applications_start w.stop outcomes).trans (applications_stop w)
  | runApk apkFile fileExists outcome => exact applications_runApk w apkFile fileExists outcome
  | runAM arguments outcome =>
    have hstarted := startProcess_started w (w.controller.androidRootDir ++
      "/system/bin/shashlik_launcher") [w.controller.androidRootDir ++ "/system/bin/",
      "com.android.commands.am.Am", arguments] "ActivityManager" outcome
    exact (congrArg Controller.applicationTrackers hstarted.controller :)
  | setQuitOnError newValue => rfl
  | fileWatch object => exact applications_fileWatch h object
  | finished object exitCode exitStatus =>
    rw [perform, applications_childFinished]
    cases stopTable w (.finished object exitCode exitStatus) <;> rfl
  | exit pid => rfl
  | reap pid => exact applications_reapForeign w pid
  | foreign hint exe cmdline => rfl

theorem matches_report_iff {w : World} {expected : List ProcessTracker} (hm : Matches w expected)
    {t : ProcessTracker} (ht : t ∈ w.controller.applicationTrackers) :
    (∀ t', t' ∈ w.removeApplicationTracker.controller.applicationTrackers ↔
      t' ∈ expected.filter (fun t' => t'.object ≠ t.object)) ↔
      (firstWithPid w).map ProcessTracker.object = some t.object := by
  rw [applications_removeApplicationTracker]
  cases hfirst : firstWithPid w with
  | none =>
    refine iff_of_false (fun hall => ?_) (by simp)
    have hmem := (hall t).mp ht
    simp at hmem
  | some t₁ =>
    simp only [Option.elim_some, Option.map_some, Option.some.injEq, List.mem_filter,
      decide_eq_true_eq]
    constructor
    · intro hall
      by_contra hne
      exact ((hall t).mp ⟨ht, fun h => hne h.symm⟩).2 rfl
    · intro hsame t'
      rw [hm t', hsame]

theorem reporting_cleared (w : World) (object : ℕ) :
    reporting { w with actions := [] } object = reporting w object := rfl

theorem matches_step_iff {w : World} (h : Coherent w) (e : Event)
    (expected : List ProcessTracker) (hm : Matches w expected) :
    Matches (w.step e) (expectedAfter w e expected) ↔ ReportsFirst w e := by
  have hclear : Coherent { w with actions := [] } :=
    h.change (S := fun _ => True) (Change.acted [])
  have hstep := applications_perform hclear e
  rw [← step] at hstep
  cases e with
  | fileWatch object =>
    simp only [stopTable, reporting_cleared] at hstep
    have hexpected : expectedAfter w (.fileWatch object) expected =
        match reporting w object with
        | none => expected
        | some t => expected.filter (fun t' => t'.object ≠ t.object) := rfl
    rw [Matches, hstep, hexpected]
    cases hr : reporting w object with
    | none => exact iff_of_true hm (fun o t he ht => by cases he; simp [hr] at ht)
    | some t =>
      have hfirst : ReportsFirst w (.fileWatch object) ↔
          (firstWithPid w).map ProcessTracker.object = some t.object := by
        constructor
        · exact fun hall => hall object t rfl hr
        · intro hsome o t' he ht'
          cases he
          rw [hr] at ht'
          exact Option.some.inj ht' ▸ hsome
      rw [hfirst]
      exact matches_report_iff (w := { w with actions := [] }) hm (reporting_spec hr).1
  | runApk apkFile fileExists outcome =>
    refine iff_of_true (fun t => ?_) (fun o t he => by cases he)
    have hexpected : expectedAfter w (.runApk apkFile fileExists outcome) expected =
        expected ++ launchedTrackers w apkFile fileExists outcome := rfl
    have happlications : (w.step (.runApk apkFile fileExists outcome)).controller.applicationTrackers
        = w.controller.applicationTrackers ++ launchedTrackers w apkFile fileExists outcome := hstep
    rw [hexpected, happlications, List.mem_append, List.mem_append, hm t]
  | finished object exitCode exitStatus =>
    refine iff_of_true (fun t => ?_) (fun o t he => by cases he)
    have htable : stopTable { w with actions := [] } (.finished object exitCode exitStatus) =
        stopTable w (.finished object exitCode exitStatus) := rfl
    have hexpected : expectedAfter w (.finished object exitCode exitStatus) expected =
        (stopTable w (.finished object exitCode exitStatus)).elim expected (fun _ => []) := by
      unfold expectedAfter
      cases stopTable w (.finished object exitCode exitStatus) <;> rfl
    rw [hstep, hexpected, htable]
    cases stopTable w (.finished object exitCode exitStatus) with
    | none => exact hm t
    | some os => exact Iff.rfl
  | stop => exact iff_of_true (fun t => by rw [hstep]; rfl) (fun o t he => by cases he)
  | restart outcomes => exact iff_of_true (fun t => by rw [hstep]; rfl) (fun o t he => by cases he)
  | _ => exact iff_of_true (fun t => by rw [hstep]; exact hm t) (fun o t he => by cases he)

theorem run_historyStep_fst (es : List Event) (h : World × List ProcessTracker) :
    (run historyStep h es).1 = run World.step h.1 es := by
  induction es generalizing h with
  | nil => rfl
  | cons e es ih => exact ih (historyStep h e)

theorem matches_always_iff (es : List Event) (h : World × List ProcessTracker)
    (hcoherent : Coherent h.1) (hm : Matches h.1 h.2) :
    (∀ es', es' <+: es → Matches (run historyStep h es').1 (run historyStep h es').2) ↔
      Along World.step ReportsFirst h.1 es := by
  rw [← along_map historyStep World.step Prod.fst (fun _ _ => rfl) ReportsFirst]
  exact always_iff_along historyStep (fun h => Coherent h.1) (fun h => Matches h.1 h.2)
    (fun h e => ReportsFirst h.1 e) (fun h e hc _ _ => hc.step_coherent e)
    (fun h e hc hm => matches_step_iff hc e h.2 hm) h es hcoherent hm

/-- In every run the list holds, at every moment, the trackers of the applications launched
    since the last `stop()` whose exit was not reported, exactly when each report of the run
    comes from the first tracker in the list that has a pid. -/
theorem applications_tracked_iff (os : ProcessTable) (androidRootDir : String)
    (uninitialised : ℕ → Bool) (es : List Event) :
    (∀ es', es' <+: es → ∀ t,
      t ∈ (reached os androidRootDir uninitialised es').controller.applicationTrackers ↔
        t ∈ expectedTrackers os androidRootDir uninitialised es') ↔
      Along World.step ReportsFirst (construct os androidRootDir uninitialised) es := by
  have hcoherent := (constructed_construct os androidRootDir uninitialised).coherent
  unfold reached expectedTrackers
  generalize construct os androidRootDir uninitialised = w at hcoherent ⊢
  have halways := matches_always_iff es (w, w.controller.applicationTrackers) hcoherent
    (fun _ => Iff.rfl)
  simpa only [run_historyStep_fst, Matches] using halways

def secondExits : List Event :=
  [.runApk "a.apk" (fun _ => true) (some 5), .runApk "b.apk" (fun _ => true) (some 6), .exit 6,
    .finished 2 0 .normalExit, .fileWatch 3]

theorem second_exit_removes_first :
    ¬ ∀ es', es' <+: secondExits → ∀ t,
      t ∈ (reached ProcessTable.empty "/shashlik" (fun _ => false)
          es').controller.applicationTrackers ↔
        t ∈ expectedTrackers ProcessTable.empty "/shashlik" (fun _ => false) es' := by
  intro hall
  have hend := hall secondExits (List.prefix_refl _)
  have hkept : (reached ProcessTable.empty "/shashlik" (fun _ => false)
      secondExits).controller.applicationTrackers.map ProcessTracker.processId = [6] := by
    decide +kernel
  have hexpected : (expectedTrackers ProcessTable.empty "/shashlik" (fun _ => false)
      secondExits).map ProcessTracker.processId = [5] := by
    decide +kernel
  obtain ⟨t, ht, hpid⟩ := List.mem_map.mp (hexpected ▸ List.mem_singleton_self 5)
  have hmem := List.mem_map_of_mem (f := ProcessTracker.processId) ((hend t).mpr ht)
  rw [hkept, hpid] at hmem
  exact absurd hmem (by decide)

end Shashlik.ControllerApplications
