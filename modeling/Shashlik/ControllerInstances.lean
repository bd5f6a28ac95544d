import Mathlib.Data.List.Induction
import Shashlik.ControllerFlags

set_option autoImplicit false

/-!
# At most one instance of each service

A service is started only while it has no tracker, and its tracker is cleared only when the
process it follows was reaped. A process that was once started for a service is therefore
followed by the tracker of the service for as long as it lives.
-/
namespace Shashlik.ControllerInstances
open ProcessTables ProcessTrackers ServiceController World ControllerActions ControllerRuns
  ControllerFlags Relation SystemRuns

/-- The process of the latest start of a service. -/
def recorded (w : World) (s : Service) : Option ℕ := (w.controller.process s).bind QProcess.process

/-- At some moment of the run the Controller had started that process for the service. -/
def SpawnedFor (os : ProcessTable) (androidRootDir : String) (uninitialised : ℕ → Bool)
    (es : List Event) (s : Service) (serial : ℕ) : Prop :=
  ∃ es', es' <+: es ∧ recorded (reached os androidRootDir uninitialised es') s = some serial

/-- A process that the tracker of the service follows while it is alive. -/
structure Guarded (w : World) (s : Service) (serial : ℕ) : Prop where
  known : serial < w.os.nextSerial
  followed : w.os.Alive serial →
    ∃ t, w.controller.tracker s = some t ∧ t.process = some serial

theorem process_of_change {S : Launch → Prop} {w w' : World} (hc : Change S w w')
    (s : Service) :
    w'.controller.process s = w.controller.process s ∨
      w.controller.tracker s = none ∧ ∃ r, Started w r ∧ w' = trackService s r := by
  cases hc with
  | started s' r hr hs' _ =>
    by_cases he : s = s'
    · subst he
      exact Or.inr ⟨hs', r, hr, rfl⟩
    · refine Or.inl ((Function.update_of_ne he _ _).trans ?_)
      exact congrFun (congrArg Controller.process hr.controller) s
  | application r hr _ => exact Or.inl (congrFun (congrArg Controller.process hr.controller) s)
  | untracked r hr _ => exact Or.inl (congrFun (congrArg Controller.process hr.controller) s)
  | applicationExited t _ _ =>
    unfold removeApplicationTracker
    split <;> exact Or.inl rfl
  | _ => exact Or.inl rfl

theorem Guarded.change {S : Launch → Prop} {s : Service} {serial : ℕ} {w w' : World}
    (h : Coherent w) (hg : Guarded w s serial) (hc : Change S w w') : Guarded w' s serial := by
  have hevolves := evolves_of_change hc
  refine ⟨hg.known.trans_le hevolves.serials, fun halive => ?_⟩
  have hbefore := hevolves.alive hg.known halive
  obtain ⟨t, ht, hprocess⟩ := hg.followed hbefore
  rcases tracker_of_change hc s with hsame | ⟨hnone, _⟩ | ⟨⟨t', ht', _, hgone⟩, _⟩
  · exact ⟨t, hsame.trans ht, hprocess⟩
  · exact absurd (hnone.symm.trans ht) (by simp)
  · -- the tracker is cleared only when nobody has the pid any more
    obtain rfl : t = t' := Option.some.inj (ht.symm.trans ht')
    have htracks := h.tracks t (mem_heldTrackers.mpr (Or.inl ⟨s, ht⟩))
    obtain ⟨p, hfind, _⟩ := htracks.find hprocess hbefore
    exact absurd (hgone.symm.trans hfind) (by simp)

theorem guarded_trackService {w : World} {r : World × QProcess} (hr : Started w r) (s : Service)
    {serial : ℕ} (hserial : r.2.process = some serial) : Guarded (trackService s r) s serial := by
  refine ⟨(hr.process_lt serial hserial).2, fun _ => ⟨_, trackService_tracker s r, ?_⟩⟩
  rw [hr.tracker_process, hserial]

theorem recorded_guarded_change {S : Launch → Prop} {s : Service} {w w' : World}
    (h : Coherent w) (hg : ∀ serial, recorded w s = some serial → Guarded w s serial)
    (hc : Change S w w') : ∀ serial, recorded w' s = some serial → Guarded w' s serial := by
  intro serial hserial
  rcases process_of_change hc s with hsame | ⟨_, r, hr, rfl⟩
  · rw [recorded, hsame] at hserial
    exact (hg serial hserial).change h hc
  · rw [recorded, trackService_process, Option.bind_some] at hserial
    exact guarded_trackService hr s hserial

theorem guarded_step {w : World} (h : Coherent w) (s : Service) (e : Event) {P : ℕ → Prop}
    (hP : ∀ serial, P serial → Guarded w s serial)
    (hg : ∀ serial, recorded w s = some serial → Guarded w s serial) :
    (∀ serial, P serial → Guarded (w.step e) s serial) ∧
      ∀ serial, recorded (w.step e) s = some serial → Guarded (w.step e) s serial := by
  have hchanges := h.changes_step e
  have hall : Coherent (w.step e) ∧ (∀ serial, P serial → Guarded (w.step e) s serial) ∧
      ∀ serial, recorded (w.step e) s = some serial → Guarded (w.step e) s serial := by
    generalize w.step e = w' at hchanges ⊢
    induction hchanges with
    | refl => exact ⟨h, hP, hg⟩
    | tail _ hc ih =>
      exact ⟨ih.1.change hc, fun serial hs => (ih.2.1 serial hs).change ih.1 hc,
        recorded_guarded_change ih.1 ih.2.2 hc⟩
  exact hall.2

theorem reached_concat (os : ProcessTable) (androidRootDir : String) (uninitialised : ℕ → Bool)
    (es : List Event) (e : Event) :
    reached os androidRootDir uninitialised (es ++ [e]) =
      (reached os androidRootDir uninitialised es).step e := run_append _ _ _ _

theorem spawned_guarded (os : ProcessTable) (androidRootDir : String) (uninitialised : ℕ → Bool)
    (es : List Event) (s : Service) :
    (∀ serial, SpawnedFor os androidRootDir uninitialised es s serial →
        Guarded (reached os androidRootDir uninitialised es) s serial) ∧
      ∀ serial, recorded (reached os androidRootDir uninitialised es) s = some serial →
        Guarded (reached os androidRootDir uninitialised es) s serial := by
  induction es using List.reverseRecOn with
  | nil =>
    have hnone : ∀ serial, recorded (reached os androidRootDir uninitialised []) s ≠ some serial := by
      intro serial
      have hprocess := (constructed_construct os androidRootDir uninitialised).process s
      rw [reached, run_nil, recorded, hprocess]
      simp
    refine ⟨?_, fun serial hs => absurd hs (hnone serial)⟩
    rintro serial ⟨es', hp, hs⟩
    rw [List.prefix_nil.mp hp] at hs
    exact absurd hs (hnone serial)
  | append_singleton es e ih =>
    have hstep := guarded_step (coherent_reached os androidRootDir uninitialised es) s e ih.1 ih.2
    rw [← reached_concat] at hstep
    refine ⟨?_, hstep.2⟩
    rintro serial ⟨es', hp, hs⟩
    rcases List.prefix_concat_iff.mp hp with rfl | hp
    · exact hstep.2 serial hs
    · exact hstep.1 serial ⟨es', hp, hs⟩

theorem process_step_of_deaf {w : World} (h : Coherent w) {s : Service} {t : ProcessTracker}
    (ht : w.controller.tracker s = some t) (hdeaf : t.connected = false) (e : Event) :
    (w.step e).controller.process s = w.controller.process s := by
  have hchanges := h.changes_step e
  generalize w.step e = w' at hchanges ⊢
  have hall : w'.controller.tracker s = some t ∧
      w'.controller.process s = w.controller.process s := by
    induction hchanges with
    | refl => exact ⟨ht, rfl⟩
    | tail _ hc ih =>
      refine ⟨deaf_of_change hc ih.1 hdeaf, ?_⟩
      rcases process_of_change hc s with hsame | ⟨hnone, _⟩
      · exact hsame.trans ih.2
      · exact absurd (hnone.symm.trans ih.1) (by simp)
  exact hall.2

theorem discovered_not_recorded {os : ProcessTable} {w : World} (h : Constructed os w)
    {s : Service} {t : ProcessTracker} (ht : w.controller.tracker s = some t) (es : List Event) :
    (run World.step w es).controller.process s = none := by
  have hdeaf := h.unconnected t (mem_heldTrackers.mpr (Or.inl ⟨s, ht⟩))
  have hrun := run_invariant_always World.step
    (fun w => Coherent w ∧ w.controller.tracker s = some t ∧ w.controller.process s = none)
    (fun w e hw => ⟨hw.1.step_coherent e, deaf_step s hw.1 hw.2.1 hdeaf e,
      (process_step_of_deaf hw.1 hw.2.1 hdeaf e).trans hw.2.2⟩) w es ⟨h.coherent, ht, h.process s⟩
  exact hrun.2.2

/-! ### Every process on record -/

/-- Every `QProcess` was there before, or is on record for a service that counts as running,
    or is one of the applications. -/
def OnRecord (before : List QProcess) (w : World) : Prop :=
  ∀ q ∈ w.children, q ∈ before ∨
    (∃ s, w.controller.process s = some q ∧ w.controller.tracker s ≠ none) ∨
      q ∈ w.controller.applications

theorem onRecord_of_children {w w' : World} (h : w'.children = w.children) :
    OnRecord w.children w' := fun _ hq => Or.inl (h ▸ hq)

theorem OnRecord.startService {before : List QProcess} {w : World} (h : OnRecord before w)
    (s : Service) (outcome : Option ℕ) : OnRecord before (startService s w outcome) := by
  cases hrunning : w.controller.running s with
  | true =>
    obtain ⟨actions, heq, _⟩ := startService_of_running s w outcome hrunning
    rw [heq]
    exact h
  | false =>
    have hr := launch_started s w outcome
    rw [startService_of_not_running s w outcome hrunning]
    intro q hq
    change q ∈ (launch s w outcome).1.children at hq
    rw [hr.children] at hq
    rcases List.mem_cons.mp hq with rfl | hq
    · exact Or.inr (Or.inl ⟨s, trackService_process s _, by simp⟩)
    · rcases h q hq with hbefore | ⟨s', hs', hne⟩ | happ
      · exact Or.inl hbefore
      · have hother : s' ≠ s := fun he => hne (he ▸ running_eq_false_iff.mp hrunning)
        refine Or.inr (Or.inl ⟨s', ?_, ?_⟩)
        · rw [← hr.controller] at hs'
          exact (Function.update_of_ne hother _ _).trans hs'
        · rw [← hr.controller] at hne
          exact fun hnone => hne ((Function.update_of_ne hother _ _).symm.trans hnone)
      · rw [← hr.controller] at happ
        exact Or.inr (Or.inr happ)

theorem OnRecord.start {before : List QProcess} {w : World} (h : OnRecord before w)
    (outcomes : Service → Option ℕ) : OnRecord before (w.start outcomes) := by
  have hfold : ∀ (ss : List Service) (w : World), OnRecord before w →
      OnRecord before (ss.foldl (fun w s => World.startService s w (outcomes s)) w) := by
    intro ss
    induction ss with
    | nil => exact fun w h => h
    | cons s ss ih => exact fun w h => ih _ (h.startService s (outcomes s))
  exact hfold startOrder w h

theorem onRecord_application {w : World} {r : World × QProcess} (hr : Started w r) {w' : World}
    (hchildren : w'.children = r.1.children)
    (happ : w'.controller.applications = r.1.controller.applications ++ [r.2]) :
    OnRecord w.children w' := by
  intro q hq
  rw [hchildren, hr.children] at hq
  rcases List.mem_cons.mp hq with rfl | hq
  · exact Or.inr (Or.inr (by rw [happ]; exact List.mem_append_right _ (List.mem_singleton_self _)))
  · exact Or.inl hq

theorem onRecord_runApk (w : World) (apkFile : String) (fileExists : String → Bool)
    (outcome : Option ℕ) : OnRecord w.children (w.runApk apkFile fileExists outcome) := by
  rcases runApk_cases w apkFile fileExists outcome with heq | ⟨r, hr, heq⟩
  · rw [heq]
    exact onRecord_of_children rfl
  · rw [heq]
    exact onRecord_application hr rfl rfl

theorem children_of_onlyTold {w w' : World} (h : OnlyTold w w') : w'.children = w.children := by
  obtain ⟨actions, rfl, _⟩ := h
  rfl

theorem children_childFinished (w : World) (object : ℕ) (exitCode : ℤ)
    (exitStatus : ExitStatus) :
    (w.childFinished object exitCode exitStatus).children = w.children := by
  unfold childFinished
  split
  · rfl
  · rename_i q p _
    have hcases := processFinished_cases { w with os := w.os.reap p.serial } q exitCode exitStatus
    split at hcases
    · obtain ⟨w₁, htold, htold'⟩ := hcases
      rw [children_of_onlyTold htold', stop_eq, children_of_onlyTold htold]
    · exact (children_of_onlyTold hcases :)

theorem children_fileWatch (w : World) (object : ℕ) :
    (w.fileWatch object).children = w.children := by
  rcases fileWatch_cases w object with heq | ⟨t, _, _, _, _, heq⟩
  · rw [heq]
  · rw [heq]
    split
    · rcases processExited_cases { w with stopped := object :: w.stopped } object with
        ⟨s, t', _, _, heq'⟩ | ⟨_, heq'⟩
      · rw [heq']
        rfl
      · rw [heq', removeApplicationTracker]
        split <;> rfl
    · rfl

theorem children_reapForeign (w : World) (pid : ℕ) : (w.reapForeign pid).children = w.children := by
  unfold reapForeign
  split
  · rfl
  · split <;> rfl

theorem onRecord_perform (w : World) (e : Event) : OnRecord w.children (w.perform e) := by
  have hsame : OnRecord w.children w := onRecord_of_children rfl
  cases e with
  | start s outcome => exact hsame.startService s outcome
  | startAll outcomes => exact hsame.start outcomes
  | stop => exact onRecord_of_children (by rw [perform, stop_eq])
  | restart outcomes =>
    have hstop : OnRecord w.children w.stop := onRecord_of_children (by rw [stop_eq])
    exact hstop.start outcomes
  | runApk apkFile fileExists outcome => exact onRecord_runApk w apkFile fileExists outcome
  | runAM arguments outcome =>
    exact onRecord_application (startProcess_started w _ _ _ _) rfl rfl
  | setQuitOnError newValue => exact onRecord_of_children rfl
  | fileWatch object => exact onRecord_of_children (children_fileWatch w object)
  | finished object exitCode exitStatus =>
    exact onRecord_of_children (children_childFinished w object exitCode exitStatus)
  | exit pid => exact onRecord_of_children rfl
  | reap pid => exact onRecord_of_children (children_reapForeign w pid)
  | foreign hint exe cmdline => exact onRecord_of_children rfl

theorem applications_of_change {S : Launch → Prop} {w w' : World} (hc : Change S w w') :
    ∀ q ∈ w.controller.applications, q ∈ w'.controller.applications := by
  intro q hq
  cases hc with
  | started s r hr _ _ => exact (congrArg Controller.applications hr.controller).symm ▸ hq
  | application r hr _ =>
    exact List.mem_append_left _ ((congrArg Controller.applications hr.controller).symm ▸ hq)
  | untracked r hr _ =>
    exact List.mem_append_left _ ((congrArg Controller.applications hr.controller).symm ▸ hq)
  | applicationExited t _ _ =>
    unfold removeApplicationTracker
    split <;> exact hq
  | _ => exact hq

theorem applications_step {w : World} (h : Coherent w) (e : Event) :
    ∀ q ∈ w.controller.applications, q ∈ (w.step e).controller.applications := by
  have hchanges := h.changes_step e
  generalize w.step e = w' at hchanges ⊢
  induction hchanges with
  | refl => exact fun _ hq => hq
  | tail _ hc ih => exact fun q hq => applications_of_change hc q (ih q hq)

/-- Every process that a run started is one of the applications or was on record for a
    service at some moment. -/
theorem children_spawned (os : ProcessTable) (androidRootDir : String)
    (uninitialised : ℕ → Bool) (es : List Event) :
    ∀ q ∈ (reached os androidRootDir uninitialised es).children,
      (∃ s es', es' <+: es ∧
        (reached os androidRootDir uninitialised es').controller.process s = some q) ∨
      q ∈ (reached os androidRootDir uninitialised es).controller.applications := by
  induction es using List.reverseRecOn with
  | nil =>
    have hnil := (constructed_construct os androidRootDir uninitialised).children
    intro q hq
    rw [reached, run_nil, hnil] at hq
    exact absurd hq List.not_mem_nil
  | append_singleton es e ih =>
    have hcoherent := coherent_reached os androidRootDir uninitialised es
    rw [reached_concat]
    intro q hq
    rcases onRecord_perform { reached os androidRootDir uninitialised es with actions := [] } e q hq
      with hbefore | ⟨s, hs, _⟩ | happ
    · rcases ih q hbefore with ⟨s, es', hp, hs⟩ | happ
      · exact Or.inl ⟨s, es', hp.trans (List.prefix_append _ _), hs⟩
      · exact Or.inr (applications_step hcoherent e q happ)
    · refine Or.inl ⟨s, es ++ [e], List.prefix_refl _, ?_⟩
      rw [reached_concat]
      exact hs
    · exact Or.inr happ

/-- In every run, at most one of the processes spawned for a service is alive, and none is
    ever spawned for a service that the constructor discovered. Every other process that was
    spawned is the one of an application. -/
theorem at_most_one_instance (os : ProcessTable) (androidRootDir : String)
    (uninitialised : ℕ → Bool) (es : List Event) (s : Service) :
    (∀ serial serial', SpawnedFor os androidRootDir uninitialised es s serial →
        SpawnedFor os androidRootDir uninitialised es s serial' →
        (reached os androidRootDir uninitialised es).os.Alive serial →
        (reached os androidRootDir uninitialised es).os.Alive serial' → serial = serial') ∧
      ((construct os androidRootDir uninitialised).controller.tracker s ≠ none →
        ∀ serial, ¬ SpawnedFor os androidRootDir uninitialised es s serial) ∧
      ∀ q ∈ (reached os androidRootDir uninitialised es).children, ∀ serial,
        q.process = some serial →
          (∃ s', SpawnedFor os androidRootDir uninitialised es s' serial) ∨
          q ∈ (reached os androidRootDir uninitialised es).controller.applications := by
  obtain ⟨hguarded, _⟩ := spawned_guarded os androidRootDir uninitialised es s
  refine ⟨?_, ?_, ?_⟩
  · intro serial serial' hs hs' halive halive'
    obtain ⟨t, ht, hprocess⟩ := (hguarded serial hs).followed halive
    obtain ⟨t', ht', hprocess'⟩ := (hguarded serial' hs').followed halive'
    obtain rfl : t = t' := Option.some.inj (ht.symm.trans ht')
    exact Option.some.inj (hprocess.symm.trans hprocess')
  · rintro hne serial ⟨es', _, hs⟩
    obtain ⟨t, ht⟩ := Option.ne_none_iff_exists'.mp hne
    have hnone := discovered_not_recorded (constructed_construct os androidRootDir uninitialised)
      ht es'
    rw [← reached] at hnone
    rw [recorded, hnone] at hs
    exact absurd hs (by simp)
  · intro q hq serial hserial
    apply (children_spawned os androidRootDir uninitialised es q hq).imp_left
    rintro ⟨s', es', hp, hs'⟩
    refine ⟨s', es', hp, ?_⟩
    rw [recorded, hs', Option.bind_some, hserial]

end Shashlik.ControllerInstances
