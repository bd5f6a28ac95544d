import Mathlib.Logic.Relation
import Shashlik.ControllerActions
import Shashlik.Library.SystemRuns

set_option autoImplicit false

/-!
# Runs of the Controller

Every event is a sequence of a few kinds of changes. The invariants are proved for these
changes, and hold from then on in every state that a run reaches.
-/
namespace Shashlik.ControllerRuns
open ProcessTables ProcessTrackers ServiceController World ControllerActions Relation SystemRuns

/-- The processes that the Controller discovered or started. -/
def own (w : World) : List ℕ := w.discovered ++ w.children.filterMap QProcess.process

def trackApplication (r : World × QProcess) : World :=
  let tracked := r.1.newTracker r.2.processId
  { tracked.1 with
    controller := { tracked.1.controller with
      applications := tracked.1.controller.applications ++ [r.2]
      applicationTrackers := tracked.1.controller.applicationTrackers ++ [tracked.2] } }

def leaveUntracked (r : World × QProcess) : World :=
  { r.1 with
    controller := { r.1.controller with applications := r.1.controller.applications ++ [r.2] } }

def forgetApplications (w : World) : World :=
  { w with controller := { w.controller with applicationTrackers := [] } }

def stopTimer (w : World) (t : ProcessTracker) : World :=
  { w with stopped := t.object :: w.stopped }

/-- What a slot may start: a service, an application or an activity manager. -/
inductive Launch where
  | service (s : Service)
  | application
  | activity

/-- `S` names what may be started. -/
inductive Change (S : Launch → Prop) (w : World) : World → Prop where
  | acted (actions : List Action) : Change S w { w with actions := actions }
  | table (os : ProcessTable) (h : ProcessTable.Evolves w.os os) : Change S w { w with os := os }
  | quitOnError (newValue : Bool) :
    Change S w { w with controller := { w.controller with quitOnError := newValue } }
  | started (s : Service) (r : World × QProcess) (h : Started w r)
    (hs : w.controller.tracker s = none) (hS : S (.service s)) : Change S w (trackService s r)
  | application (r : World × QProcess) (h : Started w r) (hS : S .application) :
    Change S w (trackApplication r)
  | untracked (r : World × QProcess) (h : Started w r) (hS : S .activity) :
    Change S w (leaveUntracked r)
  | forgot : Change S w (forgetApplications w)
  | exited (s : Service) (t : ProcessTracker) (ht : w.controller.tracker s = some t)
    (hc : t.connected = true) (hgone : w.os.find t.processId = none) :
    Change S w ((stopTimer w t).clearTracker s)
  | applicationExited (t : ProcessTracker) (ht : t ∈ w.controller.applicationTrackers)
    (hgone : w.os.find t.processId = none) :
    Change S w (stopTimer w t).removeApplicationTracker
  | unheard (t : ProcessTracker) (ht : t ∈ w.heldTrackers) (hc : t.connected = false)
    (hgone : w.os.find t.processId = none) : Change S w (stopTimer w t)

abbrev Changes (S : Launch → Prop) : World → World → Prop := ReflTransGen (Change S)

section Steps
variable {S : Launch → Prop}

theorem changes_of_onlyTold {w w' : World} (h : OnlyTold w w') : Changes S w w' := by
  obtain ⟨actions, rfl, _⟩ := h
  exact ReflTransGen.single (Change.acted actions)

theorem changes_stop (w : World) : Changes S w w.stop := by
  rw [stop_eq]
  exact (ReflTransGen.single Change.forgot).tail (Change.acted _)

theorem running_eq_false_iff {w : World} {s : Service} :
    w.controller.running s = false ↔ w.controller.tracker s = none := by
  rw [Controller.running, Option.isSome_eq_false_iff, Option.isNone_iff_eq_none]

theorem running_eq_true_iff {w : World} {s : Service} :
    w.controller.running s = true ↔ w.controller.tracker s ≠ none := by
  rw [Controller.running, Option.isSome_iff_ne_none]

theorem changes_startService (s : Service) (w : World) (outcome : Option ℕ)
    (hS : S (.service s)) :
    Changes S w (startService s w outcome) := by
  cases hrunning : w.controller.running s with
  | true => exact changes_of_onlyTold (startService_of_running s w outcome hrunning)
  | false =>
    rw [startService_of_not_running s w outcome hrunning]
    exact ReflTransGen.single (Change.started s _ (launch_started s w outcome)
      (running_eq_false_iff.mp hrunning) hS)

theorem changes_start (w : World) (outcomes : Service → Option ℕ)
    (hS : ∀ s ∈ startOrder, S (.service s)) : Changes S w (w.start outcomes) := by
  have hfold : ∀ (ss : List Service) (w : World), (∀ s ∈ ss, S (.service s)) →
      Changes S w (ss.foldl (fun w s => startService s w (outcomes s)) w) := by
    intro ss
    induction ss with
    | nil => exact fun w _ => ReflTransGen.refl
    | cons s ss ih =>
      intro w hss
      rw [List.forall_mem_cons] at hss
      exact (changes_startService s w (outcomes s) hss.1).trans (ih _ hss.2)
  exact hfold startOrder w hS

theorem runApk_cases (w : World) (apkFile : String) (fileExists : String → Bool)
    (outcome : Option ℕ) : w.runApk apkFile fileExists outcome = w ∨
      ∃ r, Started w r ∧ w.runApk apkFile fileExists outcome = trackApplication r := by
  unfold runApk
  simp only
  split
  · exact Or.inr ⟨_, startProcess_started w _ _ _ _, rfl⟩
  · exact Or.inl rfl

theorem changes_runApk (w : World) (apkFile : String) (fileExists : String → Bool)
    (outcome : Option ℕ) (hS : S .application) :
    Changes S w (w.runApk apkFile fileExists outcome) := by
  rcases runApk_cases w apkFile fileExists outcome with heq | ⟨r, hr, heq⟩
  · rw [heq]
  · rw [heq]
    exact ReflTransGen.single (Change.application r hr hS)

theorem changes_processFinished (w : World) (q : QProcess) (exitCode : ℤ)
    (exitStatus : ExitStatus) : Changes S w (w.processFinished q exitCode exitStatus) := by
  have hcases := processFinished_cases w q exitCode exitStatus
  split at hcases
  · obtain ⟨w₁, htold, htold'⟩ := hcases
    exact ((changes_of_onlyTold htold).trans (changes_stop w₁)).trans
      (changes_of_onlyTold htold')
  · exact changes_of_onlyTold hcases

theorem changes_childFinished (w : World) (object : ℕ) (exitCode : ℤ)
    (exitStatus : ExitStatus) : Changes S w (w.childFinished object exitCode exitStatus) := by
  unfold childFinished
  split
  · exact ReflTransGen.refl
  · rename_i q p _
    exact (ReflTransGen.single (Change.table _ (ProcessTable.evolves_reap w.os p.serial))).trans
      (changes_processFinished _ q exitCode exitStatus)

theorem changes_reapForeign (w : World) (pid : ℕ) : Changes S w (w.reapForeign pid) := by
  unfold reapForeign
  split
  · exact ReflTransGen.refl
  · split
    · exact ReflTransGen.refl
    · exact ReflTransGen.single (Change.table _ (ProcessTable.evolves_reap w.os _))

end Steps

def startedBy : Event → Launch → Prop
  | .start s _, l => l = .service s
  | .startAll _, l => ∃ s ∈ startOrder, l = .service s
  | .restart _, l => ∃ s ∈ startOrder, l = .service s
  | .runApk _ _ _, l => l = .application
  | .runAM _ _, l => l = .activity
  | _, _ => False

/-- What is true of all trackers that the Controller refers to. -/
structure Coherent (w : World) : Prop where
  fresh : ∀ t ∈ w.heldTrackers, t.object < w.nextObject
  stopped : ∀ o ∈ w.stopped, o < w.nextObject
  distinct : ∀ s s' t t', w.controller.tracker s = some t → w.controller.tracker s' = some t' →
    t.object = t'.object → s = s'
  apart : ∀ s t, w.controller.tracker s = some t →
    ∀ t' ∈ w.controller.applicationTrackers, t.object ≠ t'.object
  tracks : ∀ t ∈ w.heldTrackers, Tracks w.os t
  owned : ∀ t ∈ w.heldTrackers, ∀ serial, t.process = some serial → serial ∈ own w
  known : ∀ serial ∈ own w, serial < w.os.nextSerial
  processes : ∀ s q, w.controller.process s = some q → q ∈ w.children

theorem Coherent.eq_of_object {w : World} (h : Coherent w) {s : Service}
    {t t' : ProcessTracker} (ht : w.controller.tracker s = some t) (ht' : t' ∈ w.heldTrackers)
    (hobject : t.object = t'.object) : t = t' := by
  rcases mem_heldTrackers.mp ht' with ⟨s', hs'⟩ | happ
  · have hss := h.distinct s s' t t' ht hs' hobject
    subst hss
    exact Option.some.inj (ht.symm.trans hs')
  · exact absurd hobject (h.apart s t ht t' happ)

theorem Coherent.fileWatch {S : Launch → Prop} {w : World} (h : Coherent w) (object : ℕ) :
    Changes S w (w.fileWatch object) := by
  rcases fileWatch_cases w object with heq | ⟨t, ht, rfl, _, hgone, heq⟩
  · rw [heq]
  rw [heq]
  cases hc : t.connected with
  | false => exact ReflTransGen.single (Change.unheard t ht hc hgone)
  | true =>
    rw [if_pos rfl]
    rcases processExited_cases (stopTimer w t) t.object with
      ⟨s, t', ht', hobject, heq'⟩ | ⟨hnone, heq'⟩
    · have hheld : w.controller.tracker s = some t' := ht'
      have hsame := h.eq_of_object hheld ht hobject
      subst hsame
      change Changes S w ((stopTimer w t').processExited t'.object)
      rw [heq']
      exact (ReflTransGen.single (Change.exited s t' hheld hc hgone)).tail (Change.acted _)
    · rcases mem_heldTrackers.mp ht with ⟨s, hs⟩ | happ
      · exact absurd rfl (hnone s t hs)
      · change Changes S w ((stopTimer w t).processExited t.object)
        rw [heq']
        exact ReflTransGen.single (Change.applicationExited t happ hgone)

theorem Coherent.mono {w w' : World} (h : Coherent w)
    (htracker : ∀ s t, w'.controller.tracker s = some t → w.controller.tracker s = some t)
    (happ : ∀ t ∈ w'.controller.applicationTrackers, t ∈ w.controller.applicationTrackers)
    (hprocess : w'.controller.process = w.controller.process)
    (hchildren : w'.children = w.children) (hdiscovered : w'.discovered = w.discovered)
    (hos : ProcessTable.Evolves w.os w'.os) (hnext : w'.nextObject = w.nextObject)
    (hstopped : ∀ o ∈ w'.stopped, o < w.nextObject) : Coherent w' := by
  have hheld : ∀ t ∈ w'.heldTrackers, t ∈ w.heldTrackers := by
    intro t ht
    rcases mem_heldTrackers.mp ht with ⟨s, hs⟩ | ht
    · exact mem_heldTrackers.mpr (Or.inl ⟨s, htracker s t hs⟩)
    · exact mem_heldTrackers.mpr (Or.inr (happ t ht))
  have hown : own w' = own w := by rw [own, own, hchildren, hdiscovered]
  refine ⟨?_, ?_, ?_, ?_, ?_, ?_, ?_, ?_⟩
  · intro t ht
    rw [hnext]
    exact h.fresh t (hheld t ht)
  · rw [hnext]
    exact hstopped
  · intro s s' t t' hs hs'
    exact h.distinct s s' t t' (htracker s t hs) (htracker s' t' hs')
  · intro s t hs t' ht'
    exact h.apart s t (htracker s t hs) t' (happ t' ht')
  · intro t ht
    exact (h.tracks t (hheld t ht)).evolves hos
  · intro t ht
    rw [hown]
    exact h.owned t (hheld t ht)
  · intro serial hs
    rw [hown] at hs
    exact (h.known serial hs).trans_le hos.serials
  · rw [hprocess, hchildren]
    exact h.processes

theorem heldTrackers_congr {w w' : World} (h : w'.controller.tracker = w.controller.tracker)
    (h' : w'.controller.applicationTrackers = w.controller.applicationTrackers) :
    w'.heldTrackers = w.heldTrackers := by
  rw [heldTrackers, heldTrackers, h, h']

theorem mem_own_started {w : World} {r : World × QProcess} (h : Started w r) (serial : ℕ) :
    serial ∈ own r.1 ↔ serial ∈ own w ∨ r.2.process = some serial := by
  rw [own, own, h.discovered, h.children, List.filterMap_cons]
  cases hr : r.2.process with
  | none => simp
  | some serial' =>
    simp only [List.mem_append, List.mem_cons, Option.some.injEq, @eq_comm _ serial serial']
    tauto

theorem Coherent.started {w : World} (h : Coherent w) {r : World × QProcess}
    (hr : Started w r) : Coherent r.1 := by
  have hheld : r.1.heldTrackers = w.heldTrackers :=
    heldTrackers_congr (by rw [hr.controller]) (by rw [hr.controller])
  refine ⟨?_, ?_, ?_, ?_, ?_, ?_, ?_, ?_⟩
  · intro t ht
    rw [hr.nextObject]
    exact (h.fresh t (hheld ▸ ht)).trans (Nat.lt_succ_self _)
  · intro o ho
    rw [hr.nextObject]
    exact (h.stopped o (hr.stopped ▸ ho)).trans (Nat.lt_succ_self _)
  · rw [hr.controller]
    exact h.distinct
  · rw [hr.controller]
    exact h.apart
  · intro t ht
    exact (h.tracks t (hheld ▸ ht)).evolves hr.evolves
  · intro t ht serial hs
    exact (mem_own_started hr serial).mpr (Or.inl (h.owned t (hheld ▸ ht) serial hs))
  · intro serial hs
    rcases (mem_own_started hr serial).mp hs with hs | hs
    · exact (h.known serial hs).trans_le hr.evolves.serials
    · exact (hr.process_lt serial hs).2
  · intro s q hq
    rw [hr.controller] at hq
    rw [hr.children]
    exact List.mem_cons_of_mem _ (h.processes s q hq)

theorem Coherent.allocate {w : World} (h : Coherent w) (n : ℕ) :
    Coherent { w with nextObject := w.nextObject + n } :=
  ⟨fun t ht => (h.fresh t ht).trans_le (Nat.le_add_right _ n),
    fun o ho => (h.stopped o ho).trans_le (Nat.le_add_right _ n),
    h.distinct, h.apart, h.tracks, h.owned, h.known, h.processes⟩

theorem Coherent.setProcess {w : World} (h : Coherent w) (s : Service) (q : QProcess)
    (hq : q ∈ w.children) :
    Coherent { w with controller := { w.controller with
      process := Function.update w.controller.process s (some q) } } := by
  refine ⟨h.fresh, h.stopped, h.distinct, h.apart, h.tracks, h.owned, h.known, ?_⟩
  intro s' q' hs'
  change Function.update w.controller.process s (some q) s' = some q' at hs'
  by_cases he : s' = s
  · subst he
    rw [Function.update_self] at hs'
    exact Option.some.inj hs' ▸ hq
  · rw [Function.update_of_ne he] at hs'
    exact h.processes s' q' hs'

/-- A tracker that no one refers to yet, of a process of the Controller. -/
structure Stray (w : World) (t : ProcessTracker) : Prop where
  lt : t.object < w.nextObject
  unused : ∀ t' ∈ w.heldTrackers, t'.object ≠ t.object
  tracks : Tracks w.os t
  owned : ∀ serial, t.process = some serial → serial ∈ own w

theorem mem_heldTrackers_setTracker {w : World} {s : Service} {t t' : ProcessTracker}
    (h : t' ∈ (w.setTracker s t).heldTrackers) : t' = t ∨ t' ∈ w.heldTrackers := by
  rcases mem_heldTrackers.mp h with ⟨s', hs'⟩ | h
  · change Function.update w.controller.tracker s (some t) s' = some t' at hs'
    by_cases he : s' = s
    · subst he
      rw [Function.update_self] at hs'
      exact Or.inl (Option.some.inj hs').symm
    · rw [Function.update_of_ne he] at hs'
      exact Or.inr (mem_heldTrackers.mpr (Or.inl ⟨s', hs'⟩))
  · exact Or.inr (mem_heldTrackers.mpr (Or.inr h))

theorem Coherent.setTracker {w : World} (h : Coherent w) (s : Service) (t : ProcessTracker)
    (ht : Stray w t) : Coherent (w.setTracker s t) := by
  have hfield : ∀ s' t', (w.setTracker s t).controller.tracker s' = some t' →
      s' = s ∧ t' = t ∨ s' ≠ s ∧ w.controller.tracker s' = some t' := by
    intro s' t' hs'
    change Function.update w.controller.tracker s (some t) s' = some t' at hs'
    by_cases he : s' = s
    · subst he
      rw [Function.update_self] at hs'
      exact Or.inl ⟨rfl, (Option.some.inj hs').symm⟩
    · rw [Function.update_of_ne he] at hs'
      exact Or.inr ⟨he, hs'⟩
  have hunused : ∀ s' t', w.controller.tracker s' = some t' → t'.object ≠ t.object :=
    fun s' t' hs' => ht.unused t' (mem_heldTrackers.mpr (Or.inl ⟨s', hs'⟩))
  refine ⟨?_, h.stopped, ?_, ?_, ?_, ?_, h.known, h.processes⟩
  · intro t' ht'
    rcases mem_heldTrackers_setTracker ht' with rfl | ht'
    · exact ht.lt
    · exact h.fresh t' ht'
  · intro s₁ s₂ t₁ t₂ h₁ h₂ heq
    rcases hfield s₁ t₁ h₁ with ⟨rfl, rfl⟩ | ⟨_, hold₁⟩
    · rcases hfield s₂ t₂ h₂ with ⟨rfl, _⟩ | ⟨_, hold₂⟩
      · rfl
      · exact absurd heq.symm (hunused s₂ t₂ hold₂)
    · rcases hfield s₂ t₂ h₂ with ⟨rfl, rfl⟩ | ⟨_, hold₂⟩
      · exact absurd heq (hunused s₁ t₁ hold₁)
      · exact h.distinct s₁ s₂ t₁ t₂ hold₁ hold₂ heq
  · intro s₁ t₁ h₁ t' ht' heq
    rcases hfield s₁ t₁ h₁ with ⟨_, rfl⟩ | ⟨_, h₁⟩
    · exact ht.unused t' (mem_heldTrackers.mpr (Or.inr ht')) heq.symm
    · exact h.apart s₁ t₁ h₁ t' ht' heq
  · intro t' ht'
    rcases mem_heldTrackers_setTracker ht' with rfl | ht'
    · exact ht.tracks
    · exact h.tracks t' ht'
  · intro t' ht'
    rcases mem_heldTrackers_setTracker ht' with rfl | ht'
    · exact ht.owned
    · exact h.owned t' ht'

def addApplicationTracker (w : World) (t : ProcessTracker) : World :=
  { w with controller := { w.controller with
    applicationTrackers := w.controller.applicationTrackers ++ [t] } }

theorem mem_heldTrackers_addApplicationTracker {w : World} {t t' : ProcessTracker} :
    t' ∈ (addApplicationTracker w t).heldTrackers ↔ t' ∈ w.heldTrackers ∨ t' = t := by
  rw [mem_heldTrackers, mem_heldTrackers]
  simp [addApplicationTracker, or_assoc]

theorem Coherent.addApplicationTracker {w : World} (h : Coherent w) (t : ProcessTracker)
    (ht : Stray w t) : Coherent (addApplicationTracker w t) := by
  refine ⟨?_, h.stopped, h.distinct, ?_, ?_, ?_, h.known, h.processes⟩
  · intro t' ht'
    rcases mem_heldTrackers_addApplicationTracker.mp ht' with ht' | rfl
    · exact h.fresh t' ht'
    · exact ht.lt
  · intro s₁ t₁ h₁ t' ht' heq
    rcases List.mem_append.mp ht' with ht' | ht'
    · exact h.apart s₁ t₁ h₁ t' ht' heq
    · rw [List.mem_singleton] at ht'
      subst ht'
      exact ht.unused t₁ (mem_heldTrackers.mpr (Or.inl ⟨s₁, h₁⟩)) heq
  · intro t' ht'
    rcases mem_heldTrackers_addApplicationTracker.mp ht' with ht' | rfl
    · exact h.tracks t' ht'
    · exact ht.tracks
  · intro t' ht'
    rcases mem_heldTrackers_addApplicationTracker.mp ht' with ht' | rfl
    · exact h.owned t' ht'
    · exact ht.owned

theorem Coherent.stray {w : World} (h : Coherent w) {r : World × QProcess} (hr : Started w r) :
    Stray (r.1.newTracker r.2.processId).1 (r.1.newTracker r.2.processId).2 := by
  have hcoherent := h.started hr
  refine ⟨Nat.lt_succ_self _, ?_, tracks_new _ _ _ _, ?_⟩
  · intro t' ht'
    exact (hcoherent.fresh t' ht').ne
  · intro serial hs
    exact (mem_own_started hr serial).mpr
      (Or.inr ((Started.tracker_process hr r.1.nextObject true).symm.trans hs))

theorem Coherent.change {S : Launch → Prop} {w w' : World} (h : Coherent w)
    (hc : Change S w w') : Coherent w' := by
  have hrefl := ProcessTable.Evolves.refl w.os
  cases hc with
  | acted actions =>
    exact h.mono (fun _ _ => id) (fun _ => id) rfl rfl rfl hrefl rfl h.stopped
  | table os hos => exact h.mono (fun _ _ => id) (fun _ => id) rfl rfl rfl hos rfl h.stopped
  | quitOnError newValue =>
    exact h.mono (fun _ _ => id) (fun _ => id) rfl rfl rfl hrefl rfl h.stopped
  | started s r hr hs _ =>
    have hprocess := ((h.started hr).allocate 1).setProcess s r.2
      (by rw [hr.children]; exact List.mem_cons_self)
    have hstray := h.stray hr
    have htracker := hprocess.setTracker s (r.1.newTracker r.2.processId).2
      ⟨hstray.lt, hstray.unused, hstray.tracks, hstray.owned⟩
    exact htracker.mono (fun _ _ => id) (fun _ => id) rfl rfl rfl
      (ProcessTable.Evolves.refl _) rfl htracker.stopped
  | application r hr _ =>
    have hadded := ((h.started hr).allocate 1).addApplicationTracker _ (h.stray hr)
    exact hadded.mono (fun _ _ => id) (fun _ => id) rfl rfl rfl
      (ProcessTable.Evolves.refl _) rfl hadded.stopped
  | untracked r hr _ =>
    exact (h.started hr).mono (fun _ _ => id) (fun _ => id) rfl rfl rfl
      (ProcessTable.Evolves.refl _) rfl (h.started hr).stopped
  | forgot =>
    exact h.mono (fun _ _ => id) (fun t ht => absurd ht List.not_mem_nil) rfl rfl rfl hrefl rfl
      h.stopped
  | exited s t ht _ _ =>
    refine h.mono ?_ (fun _ => id) rfl rfl rfl hrefl rfl ?_
    · intro s' t' hs'
      change Function.update w.controller.tracker s none s' = some t' at hs'
      by_cases he : s' = s
      · subst he
        simp at hs'
      · rwa [Function.update_of_ne he] at hs'
    · exact List.forall_mem_cons.mpr
        ⟨h.fresh t (mem_heldTrackers.mpr (Or.inl ⟨s, ht⟩)), h.stopped⟩
  | applicationExited t ht _ =>
    have hstopped : ∀ o ∈ t.object :: w.stopped, o < w.nextObject :=
      List.forall_mem_cons.mpr ⟨h.fresh t (mem_heldTrackers.mpr (Or.inr ht)), h.stopped⟩
    have htimer : Coherent (stopTimer w t) :=
      h.mono (fun _ _ => id) (fun _ => id) rfl rfl rfl hrefl rfl hstopped
    unfold removeApplicationTracker
    split
    · exact htimer
    · exact htimer.mono (fun _ _ => id) (fun _ hm => (List.mem_filter.mp hm).1) rfl rfl rfl
        hrefl rfl hstopped
  | unheard t ht _ _ =>
    exact h.mono (fun _ _ => id) (fun _ => id) rfl rfl rfl hrefl rfl
      (List.forall_mem_cons.mpr ⟨h.fresh t ht, h.stopped⟩)

theorem Coherent.changes {S : Launch → Prop} {w w' : World} (h : Coherent w)
    (hc : Changes S w w') : Coherent w' := by
  induction hc with
  | refl => exact h
  | tail _ hstep ih => exact ih.change hstep

theorem tracker_of_change {S : Launch → Prop} {w w' : World} (hc : Change S w w')
    (s : Service) :
    w'.controller.tracker s = w.controller.tracker s ∨
    (w.controller.tracker s = none ∧ S (.service s) ∧ ∃ t, w'.controller.tracker s = some t ∧
      t.connected = true ∧ w.nextObject ≤ t.object ∧ w'.stopped = w.stopped) ∨
    ((∃ t, w.controller.tracker s = some t ∧ t.connected = true ∧
      w.os.find t.processId = none) ∧ w'.controller.tracker s = none) := by
  cases hc with
  | acted actions => exact Or.inl rfl
  | table os hos => exact Or.inl rfl
  | quitOnError newValue => exact Or.inl rfl
  | started s' r hr hs' hS =>
    by_cases he : s = s'
    · subst he
      refine Or.inr (Or.inl ⟨hs', hS, _, Function.update_self _ _ _, rfl, ?_, hr.stopped⟩)
      change w.nextObject ≤ r.1.nextObject
      rw [hr.nextObject]
      exact Nat.le_succ _
    · refine Or.inl ((Function.update_of_ne he _ _).trans ?_)
      exact congrFun (congrArg Controller.tracker hr.controller) s
  | application r hr _ => exact Or.inl (congrFun (congrArg Controller.tracker hr.controller) s)
  | untracked r hr _ => exact Or.inl (congrFun (congrArg Controller.tracker hr.controller) s)
  | forgot => exact Or.inl rfl
  | exited s' t ht hconnected hgone =>
    by_cases he : s = s'
    · subst he
      exact Or.inr (Or.inr ⟨⟨t, ht, hconnected, hgone⟩, Function.update_self _ _ _⟩)
    · exact Or.inl (Function.update_of_ne he _ _)
  | applicationExited t _ _ =>
    unfold removeApplicationTracker
    split <;> exact Or.inl rfl
  | unheard t _ _ _ => exact Or.inl rfl

theorem evolves_of_change {S : Launch → Prop} {w w' : World} (hc : Change S w w') :
    ProcessTable.Evolves w.os w'.os := by
  cases hc with
  | acted actions => exact ProcessTable.Evolves.refl _
  | table os hos => exact hos
  | quitOnError newValue => exact ProcessTable.Evolves.refl _
  | started s r hr _ _ => exact hr.evolves
  | application r hr _ => exact hr.evolves
  | untracked r hr _ => exact hr.evolves
  | forgot => exact ProcessTable.Evolves.refl _
  | exited s t _ _ _ => exact ProcessTable.Evolves.refl _
  | applicationExited t _ _ =>
    unfold removeApplicationTracker
    split <;> exact ProcessTable.Evolves.refl _
  | unheard t _ _ _ => exact ProcessTable.Evolves.refl _

theorem evolves_of_changes {S : Launch → Prop} {w w' : World} (hc : Changes S w w') :
    ProcessTable.Evolves w.os w'.os := by
  induction hc with
  | refl => exact ProcessTable.Evolves.refl _
  | tail _ hstep ih => exact ih.trans (evolves_of_change hstep)

/-! ### Construction -/

/-- What the constructor leaves: trackers of live processes, not connected to anything. -/
structure Constructed (os : ProcessTable) (w : World) : Prop where
  coherent : Coherent w
  os_eq : w.os = os
  children : w.children = []
  stopped : w.stopped = []
  process : ∀ s, w.controller.process s = none
  unconnected : ∀ t ∈ w.heldTrackers, t.connected = false
  alive : ∀ t ∈ w.heldTrackers, ∃ serial, t.process = some serial ∧ os.Alive serial

theorem constructed_initial (os : ProcessTable) (androidRootDir : String) :
    Constructed os (initial os androidRootDir) := by
  have hheld : (initial os androidRootDir).heldTrackers = [] := by
    simp [heldTrackers, initial]
  have hnone : ∀ P : ProcessTracker → Prop,
      ∀ t ∈ (initial os androidRootDir).heldTrackers, P t := by
    rw [hheld]
    exact fun P => List.forall_mem_nil _
  refine ⟨⟨hnone _, List.forall_mem_nil _, ?_, ?_, hnone _, hnone _, List.forall_mem_nil _, ?_⟩,
    rfl, rfl, rfl, fun _ => rfl, hnone _, hnone _⟩
  · exact fun s s' t t' hs => absurd hs (by simp [initial])
  · exact fun s t hs => absurd hs (by simp [initial])
  · exact fun s q hs => absurd hs (by simp [initial])

structure Found (os : ProcessTable) (w : World) (ts : List ProcessTracker) : Prop where
  stray : ∀ t ∈ ts, Stray w t
  unconnected : ∀ t ∈ ts, t.connected = false
  alive : ∀ t ∈ ts, ∃ serial, t.process = some serial ∧ os.Alive serial
  distinct : ts.Pairwise (fun t t' => t.object ≠ t'.object)

theorem Constructed.discover {os : ProcessTable} {w : World} (h : Constructed os w)
    (path : String) :
    Constructed os (w.discover path).1 ∧ Found os (w.discover path).1 (w.discover path).2 := by
  have hfound : ∀ t ∈ getTrackers w.os w.nextObject path,
      t.connected = false ∧ Tracks w.os t ∧ ∃ serial, t.process = some serial ∧
        os.Alive serial := by
    intro t ht
    obtain ⟨hc, htracks, p, _, hserial, halive⟩ := mem_getTrackers _ _ _ t ht
    exact ⟨hc, htracks, p.serial, hserial, h.os_eq ▸ halive⟩
  have hown : ∀ serial, serial ∈ own (w.discover path).1 ↔ serial ∈ own w ∨
      ∃ t ∈ getTrackers w.os w.nextObject path, t.process = some serial := by
    intro serial
    simp only [own, World.discover, List.mem_append, List.mem_filterMap]
    exact or_right_comm
  have hallocated := h.coherent.allocate (getTrackers w.os w.nextObject path).length
  have hcoherent : Coherent (w.discover path).1 := by
    refine ⟨hallocated.fresh, hallocated.stopped, hallocated.distinct, hallocated.apart,
      hallocated.tracks, ?_, ?_, hallocated.processes⟩
    · intro t ht serial hs
      exact (hown serial).mpr (Or.inl (h.coherent.owned t ht serial hs))
    · intro serial hs
      rcases (hown serial).mp hs with hs | ⟨t, ht, hs⟩
      · exact h.coherent.known serial hs
      · exact ((hfound t ht).2.1 serial hs).1
  refine ⟨⟨hcoherent, h.os_eq, h.children, h.stopped, h.process, h.unconnected, h.alive⟩,
    ⟨?_, fun t ht => (hfound t ht).1, fun t ht => (hfound t ht).2.2, newTrackers_distinct _ _ _⟩⟩
  intro t ht
  obtain ⟨hle, hlt, _⟩ := mem_newTrackers _ _ _ t ht
  refine ⟨?_, ?_, (hfound t ht).2.1, fun serial hs => (hown serial).mpr (Or.inr ⟨t, ht, hs⟩)⟩
  · change t.object < w.nextObject + (getTrackers w.os w.nextObject path).length
    rw [getTrackers, length_newTrackers]
    exact hlt
  · intro t' ht' heq
    have hlt' := h.coherent.fresh t' ht'
    omega

theorem Constructed.setTracker {os : ProcessTable} {w : World} (h : Constructed os w)
    (s : Service) (t : ProcessTracker) (hstray : Stray w t) (hc : t.connected = false)
    (halive : ∃ serial, t.process = some serial ∧ os.Alive serial) :
    Constructed os (w.setTracker s t) := by
  refine ⟨h.coherent.setTracker s t hstray, h.os_eq, h.children, h.stopped, h.process, ?_, ?_⟩
  · intro t' ht'
    rcases mem_heldTrackers_setTracker ht' with rfl | ht'
    · exact hc
    · exact h.unconnected t' ht'
  · intro t' ht'
    rcases mem_heldTrackers_setTracker ht' with rfl | ht'
    · exact halive
    · exact h.alive t' ht'

theorem Constructed.addApplicationTracker {os : ProcessTable} {w : World}
    (h : Constructed os w) (t : ProcessTracker) (hstray : Stray w t) (hc : t.connected = false)
    (halive : ∃ serial, t.process = some serial ∧ os.Alive serial) :
    Constructed os (addApplicationTracker w t) := by
  refine ⟨h.coherent.addApplicationTracker t hstray, h.os_eq, h.children, h.stopped, h.process,
    ?_, ?_⟩
  · intro t' ht'
    rcases mem_heldTrackers_addApplicationTracker.mp ht' with ht' | rfl
    · exact h.unconnected t' ht'
    · exact hc
  · intro t' ht'
    rcases mem_heldTrackers_addApplicationTracker.mp ht' with ht' | rfl
    · exact h.alive t' ht'
    · exact halive

theorem Constructed.discoverService {os : ProcessTable} {w : World} (h : Constructed os w)
    (executable : Service × String) : Constructed os (w.discoverService executable) := by
  obtain ⟨hdiscover, hfound⟩ := h.discover (w.controller.androidRootDir ++ executable.2)
  unfold World.discoverService
  simp only
  split
  · exact hdiscover
  · rename_i t ts hts
    rw [hts] at hfound
    exact hdiscover.setTracker executable.1 t (hfound.stray t List.mem_cons_self)
      (hfound.unconnected t List.mem_cons_self) (hfound.alive t List.mem_cons_self)

theorem Constructed.discoverLaunchers {os : ProcessTable} {w : World} (h : Constructed os w)
    (uninitialised : ℕ → Bool) (ts : List ProcessTracker) (hts : Found os w ts) :
    Constructed os (ts.foldl (discoverLauncher uninitialised) w) := by
  induction ts generalizing w with
  | nil => exact h
  | cons t ts ih =>
    have hne := List.pairwise_cons.mp hts.distinct
    have hstray := hts.stray t List.mem_cons_self
    have hrest := fun t' (ht' : t' ∈ ts) => hts.stray t' (List.mem_cons_of_mem _ ht')
    have hmore : ∀ w', Constructed os w' → w'.os = w.os → w'.nextObject = w.nextObject →
        own w' = own w → (∀ t' ∈ w'.heldTrackers, t' ∈ w.heldTrackers ∨ t' = t) →
        Constructed os (ts.foldl (discoverLauncher uninitialised) w') := by
      intro w' h' hos hnext hown hheld
      refine ih h' ⟨?_, fun t' ht' => hts.unconnected t' (List.mem_cons_of_mem _ ht'),
        fun t' ht' => hts.alive t' (List.mem_cons_of_mem _ ht'), hne.2⟩
      intro t' ht'
      refine ⟨hnext ▸ (hrest t' ht').lt, ?_, hos ▸ (hrest t' ht').tracks,
        hown ▸ (hrest t' ht').owned⟩
      intro t'' ht''
      rcases hheld t'' ht'' with ht'' | rfl
      · exact (hrest t' ht').unused t'' ht''
      · exact hne.1 t' ht'
    rw [List.foldl_cons, discoverLauncher]
    split
    · exact hmore _ (h.setTracker .zygote t hstray (hts.unconnected t List.mem_cons_self)
        (hts.alive t List.mem_cons_self)) rfl rfl rfl
        (fun t' ht' => (mem_heldTrackers_setTracker ht').symm)
    · exact hmore _ (h.addApplicationTracker t hstray (hts.unconnected t List.mem_cons_self)
        (hts.alive t List.mem_cons_self)) rfl rfl rfl
        (fun t' ht' => mem_heldTrackers_addApplicationTracker.mp ht')

theorem constructed_construct (os : ProcessTable) (androidRootDir : String)
    (uninitialised : ℕ → Bool) :
    Constructed os (construct os androidRootDir uninitialised) := by
  have hservices : ∀ (es : List (Service × String)) (w : World), Constructed os w →
      Constructed os (es.foldl World.discoverService w) := by
    intro es
    induction es with
    | nil => exact fun w h => h
    | cons e es ih => exact fun w h => ih _ (h.discoverService e)
  have hw := hservices executables _ (constructed_initial os androidRootDir)
  obtain ⟨hdiscover, hfound⟩ := hw.discover
    ((executables.foldl World.discoverService (initial os androidRootDir)).controller.androidRootDir
      ++ "/system/bin/shashlik_launcher")
  exact hdiscover.discoverLaunchers uninitialised _ hfound

def reached (os : ProcessTable) (androidRootDir : String) (uninitialised : ℕ → Bool)
    (es : List Event) : World :=
  run World.step (construct os androidRootDir uninitialised) es

/-- Every event is a sequence of changes. -/
theorem Coherent.changes_step {w : World} (h : Coherent w) (e : Event) :
    Changes (startedBy e) w (w.step e) := by
  have told : Coherent { w with actions := [] } := h.change (S := startedBy e) (Change.acted [])
  refine ReflTransGen.head (Change.acted []) ?_
  cases e with
  | start s outcome => exact changes_startService s _ outcome rfl
  | startAll outcomes => exact changes_start _ outcomes (fun s hs => ⟨s, hs, rfl⟩)
  | stop => exact changes_stop _
  | restart outcomes => exact (changes_stop _).trans (changes_start _ outcomes (fun s hs => ⟨s, hs, rfl⟩))
  | runApk apkFile fileExists outcome => exact changes_runApk _ apkFile fileExists outcome rfl
  | runAM arguments outcome =>
    exact ReflTransGen.single (Change.untracked _ (startProcess_started _ _ _ _ _) rfl)
  | setQuitOnError newValue =>
    exact (ReflTransGen.single (Change.quitOnError newValue)).tail (Change.acted _)
  | fileWatch object => exact told.fileWatch object
  | finished object exitCode exitStatus =>
    exact changes_childFinished _ object exitCode exitStatus
  | exit pid => exact ReflTransGen.single (Change.table _ (ProcessTable.evolves_exit _ pid))
  | reap pid => exact changes_reapForeign _ pid
  | foreign hint exe cmdline =>
    exact ReflTransGen.single (Change.table _ (ProcessTable.evolves_spawn _ hint exe cmdline))

theorem Coherent.step_coherent {w : World} (h : Coherent w) (e : Event) :
    Coherent (w.step e) :=
  h.changes (h.changes_step e)

theorem coherent_reached (os : ProcessTable) (androidRootDir : String)
    (uninitialised : ℕ → Bool) (es : List Event) :
    Coherent (reached os androidRootDir uninitialised es) :=
  run_invariant_always World.step Coherent (fun _ e h => h.step_coherent e) _ es
    (constructed_construct os androidRootDir uninitialised).coherent

/-- The start of a service led to a new process, which is alive. -/
def NewProcess (w w' : World) (s : Service) : Prop :=
  ∃ q serial, w'.controller.process s = some q ∧ q.process = some serial ∧
    w.os.nextSerial ≤ serial ∧ w'.os.Alive serial

theorem newProcess_startService {w : World} {s : Service} (h : w.controller.tracker s = none)
    (hint : ℕ) : NewProcess w (startService s w (some hint)) s := by
  have hprocess := launch_process s w hint
  rw [startService_of_not_running s w (some hint) (running_eq_false_iff.mpr h)]
  refine ⟨_, w.os.nextSerial, trackService_process _ _, hprocess, Nat.le_refl _, ?_⟩
  change (launch s w (some hint)).1.os.Alive w.os.nextSerial
  rcases (launch_started s w (some hint)).outcome with ⟨_, _, hnone⟩ | ⟨_, _, _, hos, _⟩
  · exact absurd (hprocess.symm.trans hnone) (by simp)
  · rw [hos]
    exact (ProcessTable.alive_spawn_iff _ _ _ _ _).mpr (Or.inl rfl)

theorem newProcess_step {w : World} {s : Service} (h : w.controller.tracker s = none)
    (hint : ℕ) : NewProcess w (w.step (.start s (some hint))) s :=
  newProcess_startService (w := { w with actions := [] }) h hint

end Shashlik.ControllerRuns
