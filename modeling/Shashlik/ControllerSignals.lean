import Shashlik.ControllerRuns

set_option autoImplicit false

/-!
# Signals

Signals are sent by `stop()` alone, one to the pid of every tracker that is held. The pid was
read when the tracker was made: it is 0 if nothing was started, and belongs to nobody or to
somebody else once the process has gone. `stop()` is called from outside, and when the exit of
Zygote or of the service manager is noticed, before their tracker is cleared.
-/
namespace Shashlik.ControllerSignals
open ProcessTables ProcessTrackers ServiceController World ControllerActions ControllerRuns
open Relation SystemRuns

/-- The process table that `stop()` finds, if the event calls it. -/
def stopTable (w : World) : Event → Option ProcessTable
  | .stop => some w.os
  | .restart _ => some w.os
  | .finished object _ _ =>
    match w.exitedChild object with
    | none => none
    | some (q, p) => if stopsEverything w q then some (w.os.reap p.serial) else none
  | _ => none

theorem OnlyTold.kills {w w' : World} (h : OnlyTold w w') : kills w' = kills w := by
  obtain ⟨actions, rfl, ha⟩ := h
  exact ha

theorem kills_trackService (s : Service) {w : World} {r : World × QProcess}
    (hr : Started w r) : kills (trackService s r) = kills w :=
  (kills_emit _ _ rfl).trans hr.kills

theorem kills_startService (s : Service) (w : World) (outcome : Option ℕ) :
    kills (startService s w outcome) = kills w := by
  cases hrunning : w.controller.running s with
  | true => exact OnlyTold.kills (startService_of_running s w outcome hrunning)
  | false =>
    rw [startService_of_not_running s w outcome hrunning]
    exact kills_trackService s (launch_started s w outcome)

theorem kills_start (w : World) (outcomes : Service → Option ℕ) :
    kills (w.start outcomes) = kills w := by
  have hfold : ∀ (ss : List Service) (w : World),
      kills (ss.foldl (fun w s => startService s w (outcomes s)) w) = kills w := by
    intro ss
    induction ss with
    | nil => exact fun w => rfl
    | cons s ss ih => exact fun w => (ih _).trans (kills_startService s w (outcomes s))
  exact hfold startOrder w

theorem kills_runApk (w : World) (apkFile : String) (fileExists : String → Bool)
    (outcome : Option ℕ) : kills (w.runApk apkFile fileExists outcome) = kills w := by
  unfold runApk
  simp only
  split
  · exact (startProcess_started w _ _ _ _).kills
  · rfl

theorem kills_runAM (w : World) (arguments : String) (outcome : Option ℕ) :
    kills (w.runAM arguments outcome) = kills w :=
  (startProcess_started w _ _ _ _).kills

theorem kills_setQuitOnError (w : World) (newValue : Bool) :
    kills (w.setQuitOnError newValue) = kills w := kills_emit _ _ rfl

theorem kills_processExited (w : World) (sender : ℕ) :
    kills (w.processExited sender) = kills w := by
  rcases processExited_cases w sender with ⟨s, _, _, _, heq⟩ | ⟨_, heq⟩
  · rw [heq]
    exact kills_emit _ _ rfl
  · rw [heq, removeApplicationTracker]
    split <;> rfl

theorem kills_fileWatch (w : World) (object : ℕ) : kills (w.fileWatch object) = kills w := by
  rcases fileWatch_cases w object with heq | ⟨t, _, _, _, _, heq⟩
  · rw [heq]
  · rw [heq]
    split
    · exact kills_processExited _ object
    · rfl

theorem kills_processFinished (w : World) (q : QProcess) (exitCode : ℤ)
    (exitStatus : ExitStatus) :
    kills (w.processFinished q exitCode exitStatus) =
      kills w ++ if stopsEverything w q then w.heldTrackers.map (killAction w.os) else [] := by
  have hcases := processFinished_cases w q exitCode exitStatus
  split at hcases
  · rename_i hstops
    obtain ⟨w₁, ⟨actions, rfl, ha⟩, htold⟩ := hcases
    rw [if_pos hstops, OnlyTold.kills htold, kills_stop]
    exact congrArg (· ++ _) ha
  · rename_i hgoes
    rw [if_neg hgoes, List.append_nil, OnlyTold.kills hcases]

theorem kills_childFinished (w : World) (object : ℕ) (exitCode : ℤ) (exitStatus : ExitStatus) :
    kills (w.childFinished object exitCode exitStatus) = kills w ++
      ((stopTable w (.finished object exitCode exitStatus)).elim []
        (fun os => w.heldTrackers.map (killAction os))) := by
  simp only [childFinished, stopTable]
  cases w.exitedChild object with
  | none => exact (List.append_nil _).symm
  | some r =>
    obtain ⟨q, p⟩ := r
    simp only
    rw [kills_processFinished]
    change kills w ++ (if stopsEverything w q = true then _ else []) = _
    split <;> rfl

theorem kills_reapForeign (w : World) (pid : ℕ) : kills (w.reapForeign pid) = kills w := by
  unfold reapForeign
  split
  · rfl
  · split <;> rfl

theorem kills_perform (w : World) (e : Event) :
    kills (w.perform e) =
      kills w ++ (stopTable w e).elim [] (fun os => w.heldTrackers.map (killAction os)) := by
  cases e with
  | finished object exitCode exitStatus => exact kills_childFinished w object exitCode exitStatus
  | stop => exact kills_stop w
  | restart outcomes => exact (kills_start w.stop outcomes).trans (kills_stop w)
  | exit pid => exact (List.append_nil _).symm
  | foreign hint exe cmdline => exact (List.append_nil _).symm
  | _ =>
    simp only [stopTable, Option.elim_none, List.append_nil, perform, kills_startService,
      kills_start, kills_runApk, kills_runAM, kills_setQuitOnError, kills_fileWatch,
      kills_reapForeign]

theorem kills_step (w : World) (e : Event) :
    kills (w.step e) =
      (stopTable w e).elim [] (fun os => w.heldTrackers.map (killAction os)) := by
  rw [World.step, kills_perform]
  cases e <;> rfl

theorem evolves_stopTable {w : World} {e : Event} {os : ProcessTable}
    (h : stopTable w e = some os) : ProcessTable.Evolves w.os os := by
  cases e with
  | stop => exact Option.some.inj h ▸ ProcessTable.Evolves.refl _
  | restart outcomes => exact Option.some.inj h ▸ ProcessTable.Evolves.refl _
  | finished object exitCode exitStatus =>
    simp only [stopTable] at h
    split at h
    · exact absurd h (by simp)
    · split at h
      · exact Option.some.inj h ▸ ProcessTable.evolves_reap _ _
      · exact absurd h (by simp)
  | start s outcome => exact absurd h (by simp [stopTable])
  | startAll outcomes => exact absurd h (by simp [stopTable])
  | runApk apkFile fileExists outcome => exact absurd h (by simp [stopTable])
  | runAM arguments outcome => exact absurd h (by simp [stopTable])
  | setQuitOnError newValue => exact absurd h (by simp [stopTable])
  | fileWatch object => exact absurd h (by simp [stopTable])
  | exit pid => exact absurd h (by simp [stopTable])
  | reap pid => exact absurd h (by simp [stopTable])
  | foreign hint exe cmdline => exact absurd h (by simp [stopTable])

/-- The tracker was made for a process that did start and has not exited since. -/
def TracksLive (os : ProcessTable) (t : ProcessTracker) : Prop :=
  ∃ serial, t.process = some serial ∧ os.Alive serial

/-- A signal goes to one process, which is alive and which the Controller started or
    discovered. -/
def ReachesOwn (w : World) : Action → Prop
  | .kill pid target => 0 < pid ∧ ∃ p, target = some p ∧ p.alive = true ∧ p.serial ∈ own w
  | _ => True

/-- Every tracker held at a `stop()` tracks a live process. -/
def StopsLive (w : World) (e : Event) : Prop :=
  ∀ os, stopTable w e = some os → ∀ t ∈ w.heldTrackers, TracksLive os t

theorem reachesOwn_of_tracksLive {w : World} (h : Coherent w) {os : ProcessTable}
    (hos : ProcessTable.Evolves w.os os) {t : ProcessTracker} (ht : t ∈ w.heldTrackers)
    (hlive : TracksLive os t) : ReachesOwn w (killAction os t) := by
  obtain ⟨serial, hserial, halive⟩ := hlive
  obtain ⟨p, hp, rfl, ha⟩ := ((h.tracks t ht).evolves hos).find hserial halive
  obtain ⟨hmem, hpid⟩ := (os.find_eq_some_iff _ p).mp hp
  exact ⟨hpid ▸ os.pid_pos p hmem, p, hp, ha, h.owned t ht p.serial hserial⟩

theorem reachesOwn_step {w : World} (h : Coherent w) {e : Event} (hlive : StopsLive w e) :
    ∀ a ∈ (w.step e).actions, ReachesOwn w a := by
  intro a ha
  cases hkill : isKill a with
  | false =>
    cases a with
    | kill pid target => exact absurd hkill (by simp [isKill])
    | _ => trivial
  | true =>
    have hmem : a ∈ kills (w.step e) := List.mem_filter.mpr ⟨ha, hkill⟩
    rw [kills_step] at hmem
    cases hstop : stopTable w e with
    | none =>
      rw [hstop] at hmem
      exact absurd hmem List.not_mem_nil
    | some os =>
      rw [hstop] at hmem
      obtain ⟨t, ht, rfl⟩ := List.mem_map.mp hmem
      exact reachesOwn_of_tracksLive h (evolves_stopTable hstop) ht (hlive os hstop t ht)

/-- In every run in which each `stop()` finds only trackers of live processes, all signals go
    to live processes of the Controller. -/
theorem signals_reach_own_processes (os : ProcessTable) (androidRootDir : String)
    (uninitialised : ℕ → Bool) (es : List Event)
    (h : Along World.step StopsLive (construct os androidRootDir uninitialised) es) :
    Along World.step (fun w e => ∀ a ∈ (w.step e).actions, ReachesOwn w a)
      (construct os androidRootDir uninitialised) es :=
  along_of_invariant World.step Coherent StopsLive _ (fun _ e hw _ => hw.step_coherent e)
    (fun _ _ hw hlive => reachesOwn_step hw hlive) _ es
    (constructed_construct os androidRootDir uninitialised).coherent h

theorem signal_reaches_adbd :
    Along World.step (fun w e => ∀ a ∈ (w.step e).actions, ReachesOwn w a)
      (construct ProcessTable.empty "/shashlik/android" (fun _ => false))
      [.start .adbd (some 5), .stop] := by
  refine signals_reach_own_processes ProcessTable.empty "/shashlik/android" (fun _ => false)
    [.start .adbd (some 5), .stop] ⟨fun os hos => absurd hos (by simp [stopTable]), ?_, trivial⟩
  intro os hos t ht
  have hheld : ((construct ProcessTable.empty "/shashlik/android" (fun _ => false)).step
      (.start .adbd (some 5))).heldTrackers =
        [⟨1, 5, ["/shashlik/android/system/bin/adbd"], true, some 0⟩] := by decide +kernel
  have halive : ((construct ProcessTable.empty "/shashlik/android" (fun _ => false)).step
      (.start .adbd (some 5))).os.Alive 0 := by decide +kernel
  rw [hheld, List.mem_singleton] at ht
  exact ⟨0, by rw [ht], Option.some.inj hos ▸ halive⟩

theorem failed_start_signals_own_group :
    ¬ Along World.step (fun w e => ∀ a ∈ (w.step e).actions, ReachesOwn w a)
      (construct ProcessTable.empty "/shashlik/android" (fun _ => false))
      [.start .surfaceflinger none, .stop] := by
  intro h
  have hreaches := h.2.1 (.kill 0 none) (by decide +kernel)
  exact absurd hreaches.1 (Nat.lt_irrefl 0)

end Shashlik.ControllerSignals
