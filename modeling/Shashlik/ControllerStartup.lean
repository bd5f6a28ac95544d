import Shashlik.ServiceController

set_option autoImplicit false

/-!
# Telling Zygote and the applications apart

At startup the constructor sorts the processes that run the launcher: an instance with the
argument `-Xzygote` is Zygote, every other one an application. The flag of the loop is only
ever set, never cleared.
-/
namespace Shashlik.ControllerStartup
open ProcessTables ProcessTrackers ServiceController World

def IsZygote (t : ProcessTracker) : Prop := "-Xzygote" ∈ t.arguments

instance (t : ProcessTracker) : Decidable (IsZygote t) :=
  inferInstanceAs (Decidable ("-Xzygote" ∈ t.arguments))

def servicesFound (os : ProcessTable) (androidRootDir : String) : World :=
  executables.foldl discoverService (initial os androidRootDir)

def launchersFound (os : ProcessTable) (androidRootDir : String) : World × List ProcessTracker :=
  (servicesFound os androidRootDir).discover
    ((servicesFound os androidRootDir).controller.androidRootDir ++ "/system/bin/shashlik_launcher")

/-- The loop of the constructor over any list of trackers. -/
def sortLaunchers (os : ProcessTable) (androidRootDir : String) (uninitialised : ℕ → Bool)
    (trackers : List ProcessTracker) : World :=
  trackers.foldl (discoverLauncher uninitialised) (launchersFound os androidRootDir).1

/-- The applications are the trackers without the argument; Zygote is one that has it, if
    there is one. -/
structure Sorted (trackers : List ProcessTracker) (w : World) : Prop where
  applications : ∀ t ∈ trackers, t ∈ w.controller.applicationTrackers ↔ ¬ IsZygote t
  noZygote : (∀ t ∈ trackers, ¬ IsZygote t) → w.controller.tracker .zygote = none
  zygote : (∃ t ∈ trackers, IsZygote t) →
    ∃ t ∈ trackers, IsZygote t ∧ w.controller.tracker .zygote = some t

theorem isZygote_eq (uninitialised : Bool) (t : ProcessTracker) :
    isZygote uninitialised t = (decide (IsZygote t) || uninitialised) := by
  by_cases h : IsZygote t
  · have hmem : "-Xzygote" ∈ t.arguments := h
    simp [isZygote, hmem, h]
  · have hmem : "-Xzygote" ∉ t.arguments := h
    simp [isZygote, hmem, h]

theorem discoverService_fields (w : World) (executable : Service × String)
    (h : executable.1 ≠ .zygote) :
    (w.discoverService executable).controller.tracker .zygote = w.controller.tracker .zygote ∧
      (w.discoverService executable).controller.applicationTrackers =
        w.controller.applicationTrackers := by
  unfold discoverService
  simp only
  split
  · exact ⟨rfl, rfl⟩
  · exact ⟨Function.update_of_ne (Ne.symm h) _ _, rfl⟩

theorem foldl_discoverService_fields (es : List (Service × String)) (w : World)
    (h : ∀ e ∈ es, e.1 ≠ .zygote) :
    (es.foldl discoverService w).controller.tracker .zygote = w.controller.tracker .zygote ∧
      (es.foldl discoverService w).controller.applicationTrackers =
        w.controller.applicationTrackers := by
  induction es generalizing w with
  | nil => exact ⟨rfl, rfl⟩
  | cons e es ih =>
    rw [List.forall_mem_cons] at h
    have hfirst := discoverService_fields w e h.1
    have hrest := ih (w.discoverService e) h.2
    exact ⟨hrest.1.trans hfirst.1, hrest.2.trans hfirst.2⟩

theorem launchersFound_fields (os : ProcessTable) (androidRootDir : String) :
    (launchersFound os androidRootDir).1.controller.tracker .zygote = none ∧
      (launchersFound os androidRootDir).1.controller.applicationTrackers = [] := by
  have hfields := foldl_discoverService_fields executables (initial os androidRootDir) (by decide)
  rw [← servicesFound] at hfields
  rw [launchersFound]
  generalize servicesFound os androidRootDir = w at hfields ⊢
  exact hfields

theorem foldl_applicationTrackers (uninitialised : ℕ → Bool) (trackers : List ProcessTracker)
    (w : World) :
    (trackers.foldl (discoverLauncher uninitialised) w).controller.applicationTrackers =
      w.controller.applicationTrackers ++
        trackers.filter (fun t => !isZygote (uninitialised t.object) t) := by
  induction trackers generalizing w with
  | nil => simp
  | cons t ts ih =>
    rw [List.foldl_cons, ih, discoverLauncher]
    by_cases hz : isZygote (uninitialised t.object) t = true
    · rw [if_pos hz, List.filter_cons_of_neg (by simp [hz])]
      rfl
    · rw [if_neg hz, List.filter_cons_of_pos (by simp [hz])]
      simp

theorem foldl_zygote (uninitialised : ℕ → Bool) (trackers : List ProcessTracker) (w : World) :
    (trackers.foldl (discoverLauncher uninitialised) w).controller.tracker .zygote =
      ((trackers.filter (fun t => isZygote (uninitialised t.object) t)).getLast?).or
        (w.controller.tracker .zygote) := by
  induction trackers generalizing w with
  | nil => simp
  | cons t ts ih =>
    rw [List.foldl_cons, ih, discoverLauncher]
    by_cases hz : isZygote (uninitialised t.object) t = true
    · have htracker : (w.setTracker .zygote t).controller.tracker .zygote = some t := by
        simp [setTracker]
      rw [if_pos hz, List.filter_cons, if_pos hz, List.getLast?_cons, htracker]
      cases (ts.filter (fun t => isZygote (uninitialised t.object) t)).getLast? <;> rfl
    · rw [if_neg hz, List.filter_cons, if_neg hz]

/-- The constructor sorts the launchers it has found, and any list of them is sorted rightly
    exactly when the flag starts out false for every tracker without the argument. -/
theorem launchers_sorted_iff (os : ProcessTable) (androidRootDir : String)
    (uninitialised : ℕ → Bool) (trackers : List ProcessTracker) :
    construct os androidRootDir uninitialised =
      sortLaunchers os androidRootDir uninitialised (launchersFound os androidRootDir).2 ∧
    (Sorted trackers (sortLaunchers os androidRootDir uninitialised trackers) ↔
      ∀ t ∈ trackers, ¬ IsZygote t → uninitialised t.object = false) := by
  refine ⟨rfl, ?_⟩
  obtain ⟨hnone, hnil⟩ := launchersFound_fields os androidRootDir
  have happs := foldl_applicationTrackers uninitialised trackers (launchersFound os androidRootDir).1
  have hzygote := foldl_zygote uninitialised trackers (launchersFound os androidRootDir).1
  rw [hnil, List.nil_append] at happs
  rw [hnone, Option.or_none] at hzygote
  constructor
  · intro hsorted t ht hz
    have hmem := (hsorted.applications t ht).mpr hz
    rw [sortLaunchers, happs, List.mem_filter, isZygote_eq] at hmem
    simpa [hz] using hmem.2
  · intro hfalse
    have htaken : ∀ t ∈ trackers, isZygote (uninitialised t.object) t = decide (IsZygote t) := by
      intro t ht
      by_cases hz : IsZygote t
      · simp [isZygote_eq, hz]
      · simp [isZygote_eq, hz, hfalse t ht hz]
    have hfilter : trackers.filter (fun t => isZygote (uninitialised t.object) t) =
        trackers.filter (fun t => decide (IsZygote t)) := List.filter_congr htaken
    rw [hfilter] at hzygote
    refine ⟨?_, ?_, ?_⟩
    · intro t ht
      rw [sortLaunchers, happs, List.mem_filter, htaken t ht]
      simp [ht]
    · intro hnoZygote
      rw [sortLaunchers, hzygote, List.filter_eq_nil_iff.mpr (by simpa using hnoZygote)]
      rfl
    · rintro ⟨t, ht, hz⟩
      have hne : trackers.filter (fun t => decide (IsZygote t)) ≠ [] :=
        List.ne_nil_of_mem (List.mem_filter.mpr ⟨ht, by simpa using hz⟩)
      have hlast := List.getLast_mem hne
      rw [List.mem_filter] at hlast
      refine ⟨_, hlast.1, by simpa using hlast.2, ?_⟩
      rw [sortLaunchers, hzygote, List.getLast?_eq_some_getLast hne]

def applicationTable : ProcessTable :=
  ProcessTable.empty.spawn 5 "/shashlik/system/bin/shashlik_launcher"
    (cmdline "/shashlik/system/bin/shashlik_launcher" ["/shashlik/system/bin/",
      "com.android.commands.launch.Launch", "app.apk"])

theorem application_taken_for_zygote :
    ¬ Sorted (launchersFound applicationTable "/shashlik").2
      (construct applicationTable "/shashlik" (fun _ => true)) := by
  intro hsorted
  have happ := hsorted.applications (ProcessTracker.new applicationTable 0 5 false)
    (by decide +kernel)
  exact absurd (happ.mpr (by decide +kernel)) (by decide +kernel)

end Shashlik.ControllerStartup
