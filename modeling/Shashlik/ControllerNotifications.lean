import Shashlik.ControllerRuns

set_option autoImplicit false

/-!
# Change notifications

The view of the Controller reads the running flag of a service when its notification arrives,
and at no other time. Every slot announces exactly the flags that it changes, with their new
values, so that the view agrees with the Controller after every step.
-/
namespace Shashlik.ControllerNotifications
open ProcessTables ProcessTrackers ServiceController World ControllerActions ControllerRuns
  SystemRuns

def isNewsOf (s : Service) : Action → Bool
  | .runningChanged s' _ => s' = s
  | _ => false

def newsOf (s : Service) (w : World) : List Action := w.actions.filter (isNewsOf s)

/-- What has to be said about a service on the way from one state to another. -/
def announcement (w w' : World) (s : Service) : List Action :=
  if w'.controller.running s = w.controller.running s then []
  else [.runningChanged s (w'.controller.running s)]

def Tells (w w' : World) : Prop := ∀ s, newsOf s w' = newsOf s w ++ announcement w w' s

/-- No flag changed and nothing was said about one. -/
structure Quiet (w w' : World) : Prop where
  tracker : w'.controller.tracker = w.controller.tracker
  news : ∀ s, newsOf s w' = newsOf s w

theorem Quiet.refl (w : World) : Quiet w w := ⟨rfl, fun _ => rfl⟩

theorem Quiet.of_eq {w w' : World} (h : w' = w) : Quiet w w' := h ▸ Quiet.refl w

theorem Quiet.trans {w w' w'' : World} (h : Quiet w w') (h' : Quiet w' w'') : Quiet w w'' :=
  ⟨h'.tracker.trans h.tracker, fun s => (h'.news s).trans (h.news s)⟩

theorem Quiet.running {w w' : World} (h : Quiet w w') (s : Service) :
    w'.controller.running s = w.controller.running s := by
  rw [Controller.running, h.tracker, Controller.running]

theorem Quiet.tells {w w' : World} (h : Quiet w w') : Tells w w' := by
  intro s
  rw [announcement, if_pos (h.running s), List.append_nil, h.news s]

theorem Tells.trans {w w' w'' : World} (h : Tells w w') (h' : Tells w' w'')
    (hone : ∀ s, w'.controller.running s = w.controller.running s ∨
      w''.controller.running s = w'.controller.running s) : Tells w w'' := by
  intro s
  rw [h' s, h s, List.append_assoc]
  congr 1
  rcases hone s with hs | hs
  · simp only [announcement, hs, if_true, List.nil_append]
  · simp only [announcement, hs, if_true, List.append_nil]

theorem quiet_emit (w : World) (a : Action) (h : ∀ s, isNewsOf s a = false) :
    Quiet w (w.emit a) := by
  refine ⟨rfl, fun s => ?_⟩
  simp [newsOf, emit, List.filter_append, h s]

theorem quiet_quitOnError (w : World) : Quiet w w.quitOnError := by
  unfold quitOnError
  split
  · exact quiet_emit w _ (fun _ => rfl)
  · exact Quiet.refl w

theorem quiet_error (w : World) (description : String) (errorLevel : ErrorLevel) :
    Quiet w (w.emit (.error description errorLevel)) := quiet_emit w _ (fun _ => rfl)

theorem quiet_stop (w : World) : Quiet w w.stop := by
  rw [stop_eq]
  refine ⟨rfl, fun s => ?_⟩
  have hkills : (w.heldTrackers.map (killAction w.os)).filter (isNewsOf s) = [] := by
    simp [List.filter_eq_nil_iff, killAction, isNewsOf]
  rw [newsOf, newsOf, List.filter_append, hkills, List.append_nil]

theorem quiet_startProcess (w : World) (program : String) (arguments : List String)
    (objectName : String) (outcome : Option ℕ) :
    Quiet w (w.startProcess program arguments objectName outcome).1 := by
  cases outcome <;> exact ⟨rfl, fun s => by simp [newsOf, startProcess, emit, isNewsOf]⟩

theorem quiet_startCommand (w : World) (command : String) (outcome : Option ℕ) :
    Quiet w (w.startCommand command outcome).1 := by
  unfold startCommand
  split
  · exact quiet_startProcess w _ _ _ _
  · exact quiet_startProcess w _ _ _ _

theorem quiet_launch (s : Service) (w : World) (outcome : Option ℕ) :
    Quiet w (launch s w outcome).1 := by
  cases s
  case zygote => exact quiet_startProcess _ _ _ _ _
  all_goals exact quiet_startCommand _ _ _

/-! ### One step -/

theorem quiet_startService_of_running (s : Service) (w : World) (outcome : Option ℕ)
    (h : w.controller.running s = true) : Quiet w (startService s w outcome) := by
  cases s
  case servicemanager =>
    rw [startService, startServicemanager, Controller.servicemanagerRunning, if_pos h]
    exact (quiet_error w _ _).trans (quiet_quitOnError _)
  all_goals exact Quiet.of_eq (if_pos h)

theorem tells_emitRunningChanged {w : World} (w' : World) {s : Service}
    (hnews : ∀ s, newsOf s w' = newsOf s w)
    (hchanged : w'.controller.running s ≠ w.controller.running s)
    (hother : ∀ s' ≠ s, w'.controller.running s' = w.controller.running s') :
    Tells w (w'.emitRunningChanged s) := by
  intro s'
  rw [newsOf, emitRunningChanged, emit, List.filter_append, ← newsOf, hnews s']
  change _ ++ _ = _ ++ if w'.controller.running s' = w.controller.running s' then [] else
    [Action.runningChanged s' (w'.controller.running s')]
  congr 1
  by_cases hs : s' = s
  · subst hs
    simp [isNewsOf, hchanged]
  · simp [isNewsOf, hother s' hs, Ne.symm hs]

theorem running_trackService (s : Service) {w : World} {r : World × QProcess}
    (hr : Started w r) (s' : Service) :
    (trackService s r).controller.running s' = if s' = s then true else w.controller.running s' := by
  by_cases hs : s' = s
  · subst hs
    rw [if_pos rfl, Controller.running, trackService_tracker]
    rfl
  · rw [if_neg hs, Controller.running, Controller.running, ← hr.controller]
    exact congrArg Option.isSome (Function.update_of_ne hs _ _)

theorem tells_startService (s : Service) (w : World) (outcome : Option ℕ) :
    Tells w (startService s w outcome) := by
  cases hrunning : w.controller.running s with
  | true => exact (quiet_startService_of_running s w outcome hrunning).tells
  | false =>
    have hstarted := launch_started s w outcome
    have hafter := running_trackService s hstarted
    rw [startService_of_not_running s w outcome hrunning]
    refine tells_emitRunningChanged { trackService s (launch s w outcome) with
      actions := (launch s w outcome).1.actions } (quiet_launch s w outcome).news ?_ ?_
    · exact fun h => absurd ((hafter s).symm.trans (h.trans hrunning)) (by simp)
    · exact fun s' hs => (hafter s').trans (if_neg hs)

theorem running_startService {s : Service} {w : World} (outcome : Option ℕ) {s' : Service}
    (h : w.controller.running s' = true) :
    (startService s w outcome).controller.running s' = true := by
  cases hrunning : w.controller.running s with
  | true => exact ((quiet_startService_of_running s w outcome hrunning).running s').trans h
  | false =>
    rw [startService_of_not_running s w outcome hrunning,
      running_trackService s (launch_started s w outcome)]
    split
    · rfl
    · exact h

theorem tells_start (w : World) (outcomes : Service → Option ℕ) : Tells w (w.start outcomes) := by
  have hfold : ∀ (ss : List Service) (w : World),
      Tells w (ss.foldl (fun w s => startService s w (outcomes s)) w) ∧
        ∀ s', w.controller.running s' = true →
          (ss.foldl (fun w s => startService s w (outcomes s)) w).controller.running s' = true := by
    intro ss
    induction ss with
    | nil => exact fun w => ⟨(Quiet.refl w).tells, fun _ h => h⟩
    | cons s ss ih =>
      intro w
      obtain ⟨htells, hkeeps⟩ := ih (startService s w (outcomes s))
      refine ⟨(tells_startService s w (outcomes s)).trans htells ?_,
        fun s' h => hkeeps s' (running_startService _ h)⟩
      -- a flag that this start raises stays up for the rest
      intro s'
      cases hbefore : w.controller.running s' with
      | true => exact Or.inl (running_startService _ hbefore)
      | false =>
        cases hafter : (startService s w (outcomes s)).controller.running s' with
        | true => exact Or.inr (hkeeps s' hafter)
        | false => exact Or.inl rfl
  exact (hfold startOrder w).1

theorem quiet_runApk (w : World) (apkFile : String) (fileExists : String → Bool)
    (outcome : Option ℕ) : Quiet w (w.runApk apkFile fileExists outcome) := by
  unfold runApk
  simp only
  split
  · have hstart := quiet_startProcess w (w.controller.androidRootDir ++
      "/system/bin/shashlik_launcher") [w.controller.androidRootDir ++ "/system/bin/",
      "com.android.commands.launch.Launch", localFile apkFile]
      (String.ofList (((localFile apkFile).toList.splitOn '/').getLastD [])) outcome
    exact ⟨hstart.tracker, hstart.news⟩
  · exact Quiet.refl w

theorem quiet_runAM (w : World) (arguments : String) (outcome : Option ℕ) :
    Quiet w (w.runAM arguments outcome) := by
  have hstart := quiet_startProcess w (w.controller.androidRootDir ++
    "/system/bin/shashlik_launcher") [w.controller.androidRootDir ++ "/system/bin/",
    "com.android.commands.am.Am", arguments] "ActivityManager" outcome
  exact ⟨hstart.tracker, hstart.news⟩

theorem quiet_processFinished (w : World) (q : QProcess) (exitCode : ℤ)
    (exitStatus : ExitStatus) : Quiet w (w.processFinished q exitCode exitStatus) := by
  unfold processFinished
  split
  · exact ((quiet_error w _ _).trans (quiet_stop _)).trans (quiet_quitOnError _)
  split
  · exact ((quiet_error w _ _).trans (quiet_stop _)).trans (quiet_quitOnError _)
  split
  · exact (quiet_error w _ _).trans (quiet_quitOnError _)
  split
  · exact quiet_error w _ _
  split
  · exact quiet_error w _ _
  split
  · exact quiet_error w _ _
  split
  · refine Quiet.trans ?_ (quiet_quitOnError _)
    split
    · exact quiet_error w _ _
    · exact quiet_emit w _ (fun _ => rfl)
  · exact quiet_error w _ _

theorem tells_processExited (w : World) (sender : ℕ) : Tells w (w.processExited sender) := by
  rcases processExited_cases w sender with ⟨s, t, ht, _, heq⟩ | ⟨_, heq⟩
  · rw [heq]
    have hcleared : (w.clearTracker s).controller.running s = false :=
      running_eq_false_iff.mpr (Function.update_self _ _ _)
    have hbefore : w.controller.running s = true := running_eq_true_iff.mpr (by simp [ht])
    refine tells_emitRunningChanged (w.clearTracker s) (fun _ => rfl) (by simp [hcleared, hbefore]) ?_
    exact fun s' hs => congrArg Option.isSome (Function.update_of_ne hs _ _)
  · rw [heq, removeApplicationTracker]
    split
    · exact (Quiet.refl w).tells
    · exact Quiet.tells ⟨rfl, fun _ => rfl⟩

theorem tells_fileWatch (w : World) (object : ℕ) : Tells w (w.fileWatch object) := by
  rcases fileWatch_cases w object with heq | ⟨t, _, _, _, _, heq⟩
  · exact (Quiet.of_eq heq).tells
  · rw [heq]
    split
    · exact tells_processExited { w with stopped := object :: w.stopped } object
    · exact Quiet.tells ⟨rfl, fun _ => rfl⟩

theorem quiet_childFinished (w : World) (object : ℕ) (exitCode : ℤ) (exitStatus : ExitStatus) :
    Quiet w (w.childFinished object exitCode exitStatus) := by
  unfold childFinished
  split
  · exact Quiet.refl w
  · rename_i q p _
    have hreaped : Quiet w { w with os := w.os.reap p.serial } := ⟨rfl, fun _ => rfl⟩
    exact hreaped.trans (quiet_processFinished _ q exitCode exitStatus)

theorem quiet_reapForeign (w : World) (pid : ℕ) : Quiet w (w.reapForeign pid) := by
  unfold reapForeign
  split
  · exact Quiet.refl w
  · split
    · exact Quiet.refl w
    · exact ⟨rfl, fun _ => rfl⟩

theorem tells_perform (w : World) (e : Event) : Tells w (w.perform e) := by
  cases e with
  | start s outcome => exact tells_startService s w outcome
  | startAll outcomes => exact tells_start w outcomes
  | stop => exact (quiet_stop w).tells
  | restart outcomes =>
    exact (quiet_stop w).tells.trans (tells_start w.stop outcomes)
      (fun s => Or.inl ((quiet_stop w).running s))
  | runApk apkFile fileExists outcome => exact (quiet_runApk w apkFile fileExists outcome).tells
  | runAM arguments outcome => exact (quiet_runAM w arguments outcome).tells
  | setQuitOnError newValue =>
    exact Quiet.tells ⟨rfl, fun s => by simp [newsOf, perform, setQuitOnError, emit, isNewsOf]⟩
  | fileWatch object => exact tells_fileWatch w object
  | finished object exitCode exitStatus =>
    exact (quiet_childFinished w object exitCode exitStatus).tells
  | exit pid => exact Quiet.tells ⟨rfl, fun _ => rfl⟩
  | reap pid => exact (quiet_reapForeign w pid).tells
  | foreign hint exe cmdline => exact Quiet.tells ⟨rfl, fun _ => rfl⟩

theorem newsOf_step (w : World) (e : Event) (s : Service) :
    newsOf s (w.step e) = announcement w (w.step e) s :=
  tells_perform { w with actions := [] } e s

/-! ### The view -/

/-- A listener reads a flag when its notification arrives. -/
def listen (view : Service → Bool) : Action → Service → Bool
  | .runningChanged s running => Function.update view s running
  | _ => view

def watchStep (v : World × (Service → Bool)) (e : Event) : World × (Service → Bool) :=
  (v.1.step e, (v.1.step e).actions.foldl listen v.2)

/-- What a listener shows that read every flag once after construction. -/
def shown (os : ProcessTable) (androidRootDir : String) (uninitialised : ℕ → Bool)
    (es : List Event) : Service → Bool :=
  (run watchStep (construct os androidRootDir uninitialised,
    (construct os androidRootDir uninitialised).controller.running) es).2

theorem foldl_listen (actions : List Action) (view : Service → Bool) (s : Service) :
    actions.foldl listen view s = (actions.filter (isNewsOf s)).foldl listen view s := by
  have hsame : ∀ (actions : List Action) (view view' : Service → Bool), view s = view' s →
      actions.foldl listen view s = (actions.filter (isNewsOf s)).foldl listen view' s := by
    intro actions
    induction actions with
    | nil => exact fun _ _ h => h
    | cons a actions ih =>
      intro view view' h
      rw [List.foldl_cons, List.filter_cons]
      cases a with
      | runningChanged s' running =>
        by_cases hs : s' = s
        · subst hs
          rw [if_pos (by simp [isNewsOf]), List.foldl_cons]
          exact ih _ _ (by simp [listen])
        · rw [if_neg (by simp [isNewsOf, hs])]
          exact ih _ _ (by simpa [listen, Function.update_of_ne (Ne.symm hs)] using h)
      | _ => exact ih _ _ h
  exact hsame actions view view rfl

theorem view_step (w : World) (e : Event) (view : Service → Bool)
    (h : view = w.controller.running) :
    (w.step e).actions.foldl listen view = (w.step e).controller.running := by
  funext s
  have hnews := newsOf_step w e s
  rw [foldl_listen, ← newsOf, hnews, announcement]
  split
  · rename_i hsame
    rw [List.foldl_nil, h]
    exact hsame.symm
  · simp [listen]

theorem run_watchStep (es : List Event) (w : World) (view : Service → Bool)
    (h : view = w.controller.running) :
    (run watchStep (w, view) es).2 = (run World.step w es).controller.running := by
  induction es generalizing w view with
  | nil => exact h
  | cons e es ih => exact ih (w.step e) _ (view_step w e view h)

/-- In every run each step announces exactly the flags that it changes, once and with the new
    value; a listener therefore shows the current flags at every moment. -/
theorem notifications_exact (os : ProcessTable) (androidRootDir : String)
    (uninitialised : ℕ → Bool) (es : List Event) (s : Service) :
    (∀ e, ((reached os androidRootDir uninitialised es).step e).actions.filter (isNewsOf s) =
        if ((reached os androidRootDir uninitialised es).step e).controller.running s =
          (reached os androidRootDir uninitialised es).controller.running s then []
        else [.runningChanged s
          (((reached os androidRootDir uninitialised es).step e).controller.running s)]) ∧
      shown os androidRootDir uninitialised es s =
        (reached os androidRootDir uninitialised es).controller.running s := by
  refine ⟨fun e => newsOf_step _ e s, ?_⟩
  exact congrFun (run_watchStep es _ _ rfl) s

end Shashlik.ControllerNotifications
