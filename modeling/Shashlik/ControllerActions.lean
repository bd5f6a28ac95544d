import Shashlik.ServiceController

set_option autoImplicit false

/-!
# What the slots do

One description for each operation of the Controller: what a start leaves behind, what
`stop()` signals, and which fields stay as they were.
-/
namespace Shashlik.ControllerActions
open ProcessTables ProcessTrackers ServiceController World

theorem mem_stopOrder (s : Service) : s ∈ stopOrder := by
  cases s <;> decide

theorem mem_exitOrder (s : Service) : s ∈ exitOrder := by
  cases s <;> decide

theorem mem_heldTrackers {w : World} {t : ProcessTracker} :
    t ∈ w.heldTrackers ↔
      (∃ s, w.controller.tracker s = some t) ∨ t ∈ w.controller.applicationTrackers := by
  simp [heldTrackers, mem_stopOrder]

/-! ### Signals -/

def killAction (os : ProcessTable) (t : ProcessTracker) : Action :=
  .kill t.processId (os.find t.processId)

def isKill : Action → Bool
  | .kill _ _ => true
  | _ => false

def kills (w : World) : List Action := w.actions.filter isKill

theorem kills_emit (w : World) (a : Action) (h : isKill a = false) :
    kills (w.emit a) = kills w := by
  simp [kills, emit, h]

/-- Apart from actions other than signals nothing happened. -/
def OnlyTold (w w' : World) : Prop :=
  ∃ actions, w' = { w with actions := actions } ∧ actions.filter isKill = kills w

theorem OnlyTold.refl (w : World) : OnlyTold w w := ⟨w.actions, rfl, rfl⟩

theorem OnlyTold.of_eq {w w' : World} (h : w' = w) : OnlyTold w w' := h ▸ OnlyTold.refl w

theorem OnlyTold.trans {w w' w'' : World} (h : OnlyTold w w') (h' : OnlyTold w' w'') :
    OnlyTold w w'' := by
  obtain ⟨actions, rfl, ha⟩ := h
  obtain ⟨actions', rfl, ha'⟩ := h'
  exact ⟨actions', rfl, ha'.trans ha⟩

theorem onlyTold_emit (w : World) (a : Action) (h : isKill a = false) : OnlyTold w (w.emit a) :=
  ⟨_, rfl, kills_emit w a h⟩

theorem onlyTold_quitOnError (w : World) : OnlyTold w w.quitOnError := by
  unfold quitOnError
  split
  · exact onlyTold_emit w _ rfl
  · exact OnlyTold.refl w

theorem foldl_killService (ss : List Service) (w : World) :
    ss.foldl killService w =
      { w with actions := w.actions ++
          (ss.filterMap w.controller.tracker).map (killAction w.os) } := by
  induction ss generalizing w with
  | nil => simp
  | cons s ss ih =>
    rw [List.foldl_cons, ih, killService]
    cases ht : w.controller.tracker s with
    | none => simp [ht]
    | some t => simp [ht, killProcess, emit, killAction]

theorem foldl_killProcess (ts : List ProcessTracker) (w : World) :
    ts.foldl killProcess w =
      { w with actions := w.actions ++ ts.map (killAction w.os) } := by
  induction ts generalizing w with
  | nil => simp
  | cons t ts ih =>
    rw [List.foldl_cons, ih]
    simp [killProcess, emit, killAction]

theorem stop_eq (w : World) :
    w.stop = { w with
      controller := { w.controller with applicationTrackers := [] }
      actions := w.actions ++ w.heldTrackers.map (killAction w.os) } := by
  simp only [stop, foldl_killService, foldl_killProcess, heldTrackers, List.map_append,
    List.append_assoc]

theorem kills_stop (w : World) :
    kills w.stop = kills w ++ w.heldTrackers.map (killAction w.os) := by
  rw [stop_eq, kills, kills, List.filter_append]
  congr 1
  apply List.filter_eq_self.mpr
  intro a ha
  obtain ⟨t, _, rfl⟩ := List.mem_map.mp ha
  rfl

/-! ### Starting -/

theorem parseCombinedArgString_ne_nil (cs tmp : List Char) (quoteCount : ℕ) (inQuote : Bool)
    (h : tmp ≠ [] ∨ ∃ c ∈ cs, c ≠ '"' ∧ c.isWhitespace = false) :
    parseCombinedArgString tmp quoteCount inQuote cs ≠ [] := by
  induction cs generalizing tmp quoteCount inQuote with
  | nil =>
    have htmp : tmp ≠ [] := h.resolve_right (by simp)
    simp [parseCombinedArgString, htmp]
  | cons c cs ih =>
    have hrest : c = '"' ∨ c.isWhitespace = true → tmp ≠ [] ∨ ∃ c ∈ cs, c ≠ '"' ∧
        c.isWhitespace = false := by
      intro hc
      refine h.imp_right ?_
      rintro ⟨c', hmem, hquote, hspace⟩
      rcases List.mem_cons.mp hmem with rfl | hmem
      · rcases hc with hc | hc
        · exact absurd hc hquote
        · exact absurd hc (by simp [hspace])
      · exact ⟨c', hmem, hquote, hspace⟩
    rw [parseCombinedArgString]
    split
    · rename_i hc
      split
      · exact ih _ _ _ (Or.inl (by simp))
      · exact ih _ _ _ (hrest (Or.inl hc))
    · generalize (if quoteCount = 1 then !inQuote else inQuote) = quoted
      simp only
      split
      · rename_i hspace
        rw [Bool.and_eq_true] at hspace
        split
        · rename_i htmp
          subst htmp
          exact ih _ _ _ (hrest (Or.inr hspace.2))
        · exact List.cons_ne_nil _ _
      · exact ih _ _ _ (Or.inl (by simp))

/-- The result of starting a `QProcess`: nothing but the new object and, if the start
    succeeds, one new process that it refers to. -/
structure Started (w : World) (r : World × QProcess) : Prop where
  controller : r.1.controller = w.controller
  stopped : r.1.stopped = w.stopped
  discovered : r.1.discovered = w.discovered
  nextObject : r.1.nextObject = w.nextObject + 1
  children : r.1.children = r.2 :: w.children
  kills : ControllerActions.kills r.1 = ControllerActions.kills w
  outcome : (r.1.os = w.os ∧ r.2.processId = 0 ∧ r.2.process = none) ∨
    ∃ hint exe cmdline, r.1.os = w.os.spawn hint exe cmdline ∧
      r.2.processId = (w.os.spawned hint exe cmdline).pid ∧ r.2.process = some w.os.nextSerial

theorem startProcess_started (w : World) (program : String) (arguments : List String)
    (objectName : String) (outcome : Option ℕ) :
    Started w (w.startProcess program arguments objectName outcome) := by
  cases outcome with
  | none => exact ⟨rfl, rfl, rfl, rfl, rfl, kills_emit _ _ rfl, Or.inl ⟨rfl, rfl, rfl⟩⟩
  | some hint =>
    exact ⟨rfl, rfl, rfl, rfl, rfl, kills_emit _ _ rfl, Or.inr ⟨hint, _, _, rfl, rfl, rfl⟩⟩

theorem startCommand_started (w : World) (command : String) (outcome : Option ℕ) :
    Started w (w.startCommand command outcome) := by
  unfold startCommand
  split
  · exact startProcess_started w _ _ _ _
  · exact startProcess_started w _ _ _ _

theorem startProcess_process (w : World) (program : String) (arguments : List String)
    (objectName : String) (hint : ℕ) :
    (w.startProcess program arguments objectName (some hint)).2.process =
      some w.os.nextSerial := rfl

theorem startCommand_process (w : World) (root name : String) (hint : ℕ)
    (h : ∃ c ∈ name.toList, c ≠ '"' ∧ c.isWhitespace = false) :
    (w.startCommand (root ++ name) (some hint)).2.process = some w.os.nextSerial := by
  obtain ⟨c, hc, hplain⟩ := h
  have hne := parseCombinedArgString_ne_nil (root ++ name).toList [] 0 false
    (Or.inr ⟨c, by simp [hc], hplain⟩)
  unfold startCommand
  split
  · rename_i hnil
    exact absurd hnil hne
  · exact startProcess_process w _ _ _ _

theorem Started.tracker_process {w : World} {r : World × QProcess} (h : Started w r)
    (object : ℕ) (connected : Bool) :
    (ProcessTracker.new r.1.os object r.2.processId connected).process = r.2.process := by
  change (r.1.os.find r.2.processId).map Process.serial = r.2.process
  rcases h.outcome with ⟨_, hpid, hprocess⟩ | ⟨hint, exe, cmdline, hos, hpid, hprocess⟩
  · rw [hpid, r.1.os.find_zero, hprocess]
    rfl
  · have hsome : r.1.os.find r.2.processId = some (w.os.spawned hint exe cmdline) := by
      rw [hos, hpid]
      exact w.os.find_spawned hint exe cmdline
    rw [hsome, hprocess]
    rfl

theorem Started.evolves {w : World} {r : World × QProcess} (h : Started w r) :
    ProcessTable.Evolves w.os r.1.os := by
  rcases h.outcome with ⟨hos, _⟩ | ⟨hint, exe, cmdline, hos, _⟩
  · rw [hos]
    exact ProcessTable.Evolves.refl _
  · rw [hos]
    exact ProcessTable.evolves_spawn _ _ _ _

theorem Started.process_lt {w : World} {r : World × QProcess} (h : Started w r) (serial : ℕ)
    (hs : r.2.process = some serial) :
    serial = w.os.nextSerial ∧ serial < r.1.os.nextSerial := by
  rcases h.outcome with ⟨_, _, hprocess⟩ | ⟨hint, exe, cmdline, hos, _, hprocess⟩
  · exact absurd (hs.symm.trans hprocess) (by simp)
  · have heq : serial = w.os.nextSerial := Option.some.inj (hs.symm.trans hprocess)
    exact ⟨heq, by rw [hos, heq]; exact Nat.lt_succ_self _⟩

def launch (s : Service) (w : World) (outcome : Option ℕ) : World × QProcess :=
  let root := w.controller.androidRootDir
  match s with
  | .zygote => w.startProcess (root ++ "/system/bin/shashlik_launcher")
      ["-Xzygote", root ++ "/system/bin/", "--zygote", "--start-system-server"] "" outcome
  | .installd => w.startCommand (root ++ "/system/bin/installd") outcome
  | .bootanimation => w.startCommand (root ++ "/system/bin/bootanimation") outcome
  | .surfaceflinger => w.startCommand (root ++ "/system/bin/surfaceflinger") outcome
  | .adbd => w.startCommand (root ++ "/system/bin/adbd") outcome
  | .servicemanager => w.startCommand (root ++ "/system/bin/servicemanager") outcome

theorem launch_started (s : Service) (w : World) (outcome : Option ℕ) :
    Started w (launch s w outcome) := by
  cases s
  case zygote => exact startProcess_started _ _ _ _ _
  all_goals exact startCommand_started _ _ _

theorem launch_process (s : Service) (w : World) (hint : ℕ) :
    (launch s w (some hint)).2.process = some w.os.nextSerial := by
  cases s
  case zygote => exact startProcess_process _ _ _ _ _
  all_goals exact startCommand_process _ _ _ _ ⟨'/', by decide, by decide, by decide⟩

@[simp] theorem trackService_process (s : Service) (r : World × QProcess) :
    (trackService s r).controller.process s = some r.2 := Function.update_self _ _ _

@[simp] theorem trackService_tracker (s : Service) (r : World × QProcess) :
    (trackService s r).controller.tracker s =
      some (ProcessTracker.new r.1.os r.1.nextObject r.2.processId true) :=
  Function.update_self _ _ _

theorem startService_of_not_running (s : Service) (w : World) (outcome : Option ℕ)
    (h : w.controller.running s = false) :
    startService s w outcome = trackService s (launch s w outcome) := by
  cases s <;> exact if_neg (by rw [← Bool.not_eq_true] at h; exact h)

theorem startService_of_running (s : Service) (w : World) (outcome : Option ℕ)
    (h : w.controller.running s = true) : OnlyTold w (startService s w outcome) := by
  cases s
  case servicemanager =>
    rw [startService, startServicemanager, Controller.servicemanagerRunning, if_pos h]
    exact (onlyTold_emit w _ rfl).trans (onlyTold_quitOnError _)
  all_goals exact OnlyTold.of_eq (if_pos h)

/-! ### Exits -/

/-- The processes whose exit makes the Controller call `stop()`. -/
def stopsEverything (w : World) (q : QProcess) : Bool :=
  w.isProcess .zygote q || w.isProcess .servicemanager q

theorem processFinished_cases (w : World) (q : QProcess) (exitCode : ℤ)
    (exitStatus : ExitStatus) :
    if stopsEverything w q then
      ∃ w₁, OnlyTold w w₁ ∧ OnlyTold w₁.stop (w.processFinished q exitCode exitStatus)
    else OnlyTold w (w.processFinished q exitCode exitStatus) := by
  have htell : ∀ description errorLevel,
      OnlyTold w (w.emit (.error description errorLevel)) := fun _ _ => onlyTold_emit w _ rfl
  unfold stopsEverything processFinished
  by_cases hz : w.isProcess .zygote q = true
  · rw [if_pos (by rw [hz]; rfl), if_pos hz]
    exact ⟨_, htell _ _, onlyTold_quitOnError _⟩
  · by_cases hs : w.isProcess .servicemanager q = true
    · rw [if_pos (by rw [hs]; exact Bool.or_true _), if_neg hz, if_pos hs]
      exact ⟨_, htell _ _, onlyTold_quitOnError _⟩
    · rw [if_neg (by simp [hz, hs]), if_neg hz, if_neg hs]
      split
      · exact (htell _ _).trans (onlyTold_quitOnError _)
      split
      · exact htell _ _
      split
      · exact htell _ _
      split
      · exact htell _ _
      split
      · refine OnlyTold.trans ?_ (onlyTold_quitOnError _)
        split
        · exact htell _ _
        · exact onlyTold_emit w _ rfl
      · exact htell _ _

theorem fileWatch_cases (w : World) (object : ℕ) :
    w.fileWatch object = w ∨
      ∃ t ∈ w.heldTrackers, t.object = object ∧ object ∉ w.stopped ∧
        w.os.find t.processId = none ∧
        w.fileWatch object =
          if t.connected then { w with stopped := object :: w.stopped }.processExited object
          else { w with stopped := object :: w.stopped } := by
  unfold fileWatch
  split
  · exact Or.inl rfl
  · rename_i t ht
    split
    · exact Or.inl rfl
    · rename_i hwatch
      rw [not_or, ProcessTracker.watchFileExists, Bool.not_eq_true, Option.isSome_eq_false_iff,
        Option.isNone_iff_eq_none] at hwatch
      have hobject : t.object = object := by simpa using List.find?_some ht
      exact Or.inr ⟨t, List.mem_of_find?_eq_some ht, hobject, hwatch.1, hwatch.2, rfl⟩

theorem processExited_cases (w : World) (sender : ℕ) :
    (∃ s t, w.controller.tracker s = some t ∧ t.object = sender ∧
      w.processExited sender = (w.clearTracker s).emitRunningChanged s) ∨
    ((∀ s t, w.controller.tracker s = some t → t.object ≠ sender) ∧
      w.processExited sender = w.removeApplicationTracker) := by
  unfold processExited
  split
  · rename_i s hs
    have hsender := List.find?_some hs
    simp only [isTracker, decide_eq_true_eq, Option.map_eq_some_iff] at hsender
    obtain ⟨t, ht, hobject⟩ := hsender
    exact Or.inl ⟨s, t, ht, hobject, rfl⟩
  · rename_i hnone
    refine Or.inr ⟨fun s t ht hobject => ?_, rfl⟩
    have hs := List.find?_eq_none.mp hnone s (mem_exitOrder s)
    simp [isTracker, ht, hobject] at hs

end Shashlik.ControllerActions
