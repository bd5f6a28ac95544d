import Shashlik.ControllerRuns

set_option autoImplicit false

/-!
# Starting and restarting

`restart()` is `stop()` followed by `start()`. The trackers of the services outlive `stop()`,
so `start()` still takes every service that had one for running and leaves it alone.
-/
namespace Shashlik.ControllerRestart
open ProcessTables ProcessTrackers ServiceController World ControllerActions ControllerRuns
open SystemRuns

section Frame
variable (outcomes : Service → Option ℕ)

theorem startService_other {s s' : Service} (hne : s' ≠ s) (w : World) (outcome : Option ℕ) :
    (startService s w outcome).controller.process s' = w.controller.process s' ∧
      (startService s w outcome).controller.tracker s' = w.controller.tracker s' := by
  cases hrunning : w.controller.running s with
  | true =>
    obtain ⟨actions, heq, _⟩ := startService_of_running s w outcome hrunning
    rw [heq]
    exact ⟨rfl, rfl⟩
  | false =>
    rw [startService_of_not_running s w outcome hrunning]
    have hcontroller := (launch_started s w outcome).controller
    exact ⟨(Function.update_of_ne hne _ _).trans (by rw [← hcontroller]; rfl),
      (Function.update_of_ne hne _ _).trans (by rw [← hcontroller]; rfl)⟩

theorem startService_keeps {s : Service} {w : World} (h : w.controller.tracker s ≠ none)
    (s' : Service) (outcome : Option ℕ) :
    (startService s' w outcome).controller.process s = w.controller.process s ∧
      (startService s' w outcome).controller.tracker s = w.controller.tracker s := by
  by_cases he : s = s'
  · subst he
    obtain ⟨actions, heq, _⟩ := startService_of_running s w outcome (running_eq_true_iff.mpr h)
    rw [heq]
    exact ⟨rfl, rfl⟩
  · exact startService_other he w outcome

theorem startService_os (s : Service) (w : World) (outcome : Option ℕ) :
    w.os.nextSerial ≤ (startService s w outcome).os.nextSerial ∧
      ∀ serial, w.os.Alive serial → (startService s w outcome).os.Alive serial := by
  cases hrunning : w.controller.running s with
  | true =>
    obtain ⟨actions, heq, _⟩ := startService_of_running s w outcome hrunning
    rw [heq]
    exact ⟨Nat.le_refl _, fun _ => id⟩
  | false =>
    rw [startService_of_not_running s w outcome hrunning]
    change w.os.nextSerial ≤ (launch s w outcome).1.os.nextSerial ∧
      ∀ serial, w.os.Alive serial → (launch s w outcome).1.os.Alive serial
    have hstarted := launch_started s w outcome
    refine ⟨hstarted.evolves.serials, fun serial halive => ?_⟩
    rcases hstarted.outcome with ⟨hos, _⟩ | ⟨_, _, _, hos, _⟩
    · rwa [hos]
    · rw [hos]
      exact (ProcessTable.alive_spawn_iff _ _ _ _ _).mpr (Or.inr halive)

def startAll (ss : List Service) (w : World) : World :=
  ss.foldl (fun w s => startService s w (outcomes s)) w

theorem startAll_os (ss : List Service) (w : World) :
    w.os.nextSerial ≤ (startAll outcomes ss w).os.nextSerial ∧
      ∀ serial, w.os.Alive serial → (startAll outcomes ss w).os.Alive serial := by
  induction ss generalizing w with
  | nil => exact ⟨Nat.le_refl _, fun _ => id⟩
  | cons s ss ih =>
    have hfirst := startService_os s w (outcomes s)
    have hrest := ih (startService s w (outcomes s))
    exact ⟨hfirst.1.trans hrest.1, fun serial h => hrest.2 serial (hfirst.2 serial h)⟩

theorem startAll_other (ss : List Service) (w : World) {s : Service} (hs : s ∉ ss) :
    (startAll outcomes ss w).controller.process s = w.controller.process s ∧
      (startAll outcomes ss w).controller.tracker s = w.controller.tracker s := by
  induction ss generalizing w with
  | nil => exact ⟨rfl, rfl⟩
  | cons s' ss ih =>
    simp only [List.mem_cons, not_or] at hs
    have hfirst := startService_other hs.1 w (outcomes s')
    have hrest := ih (startService s' w (outcomes s')) hs.2
    exact ⟨hrest.1.trans hfirst.1, hrest.2.trans hfirst.2⟩

theorem startAll_keeps (ss : List Service) (w : World) {s : Service}
    (hs : w.controller.tracker s ≠ none) :
    (startAll outcomes ss w).controller.process s = w.controller.process s ∧
      (startAll outcomes ss w).controller.tracker s = w.controller.tracker s := by
  induction ss generalizing w with
  | nil => exact ⟨rfl, rfl⟩
  | cons s' ss ih =>
    have hfirst := startService_keeps hs s' (outcomes s')
    have hrest := ih (startService s' w (outcomes s')) (by rw [hfirst.2]; exact hs)
    exact ⟨hrest.1.trans hfirst.1, hrest.2.trans hfirst.2⟩

theorem startAll_idle (ss : List Service) (hss : ss.Nodup) (w : World) {s : Service}
    (hmem : s ∈ ss) (hs : w.controller.tracker s = none) :
    ∃ w₁, w₁.controller.tracker s = none ∧ w.os.nextSerial ≤ w₁.os.nextSerial ∧
      (startAll outcomes ss w).controller.process s =
        (startService s w₁ (outcomes s)).controller.process s ∧
      (startAll outcomes ss w).controller.tracker s =
        (startService s w₁ (outcomes s)).controller.tracker s ∧
      ∀ serial, (startService s w₁ (outcomes s)).os.Alive serial →
        (startAll outcomes ss w).os.Alive serial := by
  induction ss generalizing w with
  | nil => exact absurd hmem List.not_mem_nil
  | cons s' ss ih =>
    obtain ⟨hnot, hnodup⟩ := List.nodup_cons.mp hss
    by_cases he : s = s'
    · subst he
      have hrest := startAll_other outcomes ss (startService s w (outcomes s)) hnot
      have hos := startAll_os outcomes ss (startService s w (outcomes s))
      exact ⟨w, hs, Nat.le_refl _, hrest.1, hrest.2, hos.2⟩
    · have hfirst := startService_other he w (outcomes s')
      obtain ⟨w₁, hw₁, hle, hrest⟩ := ih hnodup (startService s' w (outcomes s'))
        ((List.mem_cons.mp hmem).resolve_left he) (hfirst.2.trans hs)
      exact ⟨w₁, hw₁, (startService_os s' w (outcomes s')).1.trans hle, hrest⟩

end Frame

theorem startOrder_nodup : startOrder.Nodup := by decide

theorem newProcess_start {w : World} {s : Service} (hmem : s ∈ startOrder)
    (hs : w.controller.tracker s = none) (hints : Service → ℕ) :
    NewProcess w (w.start (fun s => some (hints s))) s := by
  obtain ⟨w₁, hw₁, hle, hprocess, _, halive⟩ :=
    startAll_idle (fun s => some (hints s)) startOrder startOrder_nodup w hmem hs
  obtain ⟨q, serial, hq, hserial, hge, ha⟩ := newProcess_startService hw₁ (hints s)
  exact ⟨q, serial, hprocess.trans hq, hserial, hle.trans hge, halive serial ha⟩

theorem restart_tracker (w : World) : w.stop.controller.tracker = w.controller.tracker := by
  rw [stop_eq]

theorem restart_process (w : World) : w.stop.controller.process = w.controller.process := by
  rw [stop_eq]

theorem restart_os (w : World) : w.stop.os = w.os := by
  rw [stop_eq]

theorem newProcess_restart {w : World} {s : Service} (hmem : s ∈ startOrder)
    (hs : w.controller.tracker s = none) (hints : Service → ℕ) :
    NewProcess w (w.restart (fun s => some (hints s))) s := by
  have hstart := newProcess_start hmem (by rw [restart_tracker]; exact hs) hints
  obtain ⟨q, serial, hq, hserial, hge, ha⟩ := hstart
  rw [restart_os] at hge
  exact ⟨q, serial, hq, hserial, hge, ha⟩

theorem not_newProcess_restart {w : World} (h : Coherent w) {s : Service}
    (hs : w.controller.tracker s ≠ none) (outcomes : Service → Option ℕ) :
    ¬ NewProcess w (w.restart outcomes) s := by
  rintro ⟨q, serial, hq, hserial, hge, _⟩
  have hkeeps := startAll_keeps outcomes startOrder w.stop (by rw [restart_tracker]; exact hs)
  have hold : w.controller.process s = some q := by
    rw [← restart_process, ← hkeeps.1]
    exact hq
  have hown : serial ∈ own w :=
    List.mem_append_right _ (List.mem_filterMap.mpr ⟨q, h.processes s q hold, hserial⟩)
  exact absurd (h.known serial hown) (Nat.not_lt.mpr hge)

theorem newProcess_step_restart {w : World} {s : Service} (hmem : s ∈ startOrder)
    (hs : w.controller.tracker s = none) (hints : Service → ℕ) :
    NewProcess w (w.step (.restart (fun s => some (hints s)))) s :=
  newProcess_restart (w := { w with actions := [] }) hmem hs hints

theorem not_newProcess_step_restart {w : World} (h : Coherent w) {s : Service}
    (hs : w.controller.tracker s ≠ none) (outcomes : Service → Option ℕ) :
    ¬ NewProcess w (w.step (.restart outcomes)) s :=
  not_newProcess_restart (h.change (S := startedBy .stop) (Change.acted [])) hs outcomes

/-- In every state that a run reaches, `restart()` gives a new process to each of the five
    services exactly when none of them counted as running. -/
theorem restart_renews_services (os : ProcessTable) (androidRootDir : String)
    (uninitialised : ℕ → Bool) (es : List Event) (hints : Service → ℕ) :
    (∀ s ∈ startOrder, NewProcess (reached os androidRootDir uninitialised es)
      ((reached os androidRootDir uninitialised es).step
        (.restart (fun s => some (hints s)))) s) ↔
      ∀ s ∈ startOrder,
        (reached os androidRootDir uninitialised es).controller.running s = false := by
  have hcoherent := coherent_reached os androidRootDir uninitialised es
  generalize reached os androidRootDir uninitialised es = w at hcoherent ⊢
  constructor
  · intro hnew s hs
    by_contra hrunning
    rw [Bool.not_eq_false, running_eq_true_iff] at hrunning
    exact not_newProcess_step_restart hcoherent hrunning _ (hnew s hs)
  · intro hidle s hs
    exact newProcess_step_restart hs (running_eq_false_iff.mp (hidle s hs)) hints

theorem restart_keeps_adbd :
    let w := reached ProcessTable.empty "/shashlik/android" (fun _ => false)
      [.start .adbd (some 5)]
    ¬ ∀ s ∈ startOrder, NewProcess w (w.step (.restart (fun _ => some 9))) s := by
  have hcoherent := coherent_reached ProcessTable.empty "/shashlik/android" (fun _ => false)
    [.start .adbd (some 5)]
  have hrunning : (reached ProcessTable.empty "/shashlik/android" (fun _ => false)
      [.start .adbd (some 5)]).controller.tracker .adbd ≠ none := by decide +kernel
  exact fun hnew => not_newProcess_step_restart hcoherent hrunning _ (hnew .adbd (by decide))

end Shashlik.ControllerRestart
