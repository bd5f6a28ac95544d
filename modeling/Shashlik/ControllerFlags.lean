import Shashlik.ControllerRuns

set_option autoImplicit false

/-!
# The running flags

A service counts as running while it has a tracker, and the flag falls when the timer of that
tracker finds the directory of its pid gone. The start functions connect the tracker to the
slot that clears it; the constructor does not, so a service that it found counts as running
for ever.
-/
namespace Shashlik.ControllerFlags
open ProcessTables ProcessTrackers ServiceController World ControllerActions ControllerRuns
open Relation SystemRuns

/-- After the timer of its tracker a service does not count as running until it is started
    again, and its next start spawns a process. -/
def FlagFalls (w : World) (s : Service) (t : ProcessTracker) : Prop :=
  ∀ es : List Event, (∀ e ∈ es, ¬ startedBy e (.service s)) →
    let w' := run World.step (w.step (.fileWatch t.object)) es
    w'.controller.running s = false ∧
      ∀ hint, NewProcess w' (w'.step (.start s (some hint))) s

/-- The slot hears of the tracker of the service, whose timer still runs. -/
def Watched (s : Service) (w : World) : Prop :=
  ∀ t, w.controller.tracker s = some t → t.connected = true ∧ t.object ∉ w.stopped

theorem not_mem_stopped_of_change {S : Launch → Prop} {w w' : World} (h : Coherent w)
    (hc : Change S w w') {s : Service} {t : ProcessTracker}
    (ht : w.controller.tracker s = some t) (hconnected : t.connected = true)
    (hw : t.object ∉ w.stopped) (hkept : w'.controller.tracker s = some t) :
    t.object ∉ w'.stopped := by
  cases hc with
  | acted actions => exact hw
  | table os hos => exact hw
  | quitOnError newValue => exact hw
  | started s' r hr _ _ => exact hr.stopped ▸ hw
  | application r hr _ => exact hr.stopped ▸ hw
  | untracked r hr _ => exact hr.stopped ▸ hw
  | forgot => exact hw
  | exited s' t' ht' _ _ =>
    refine fun hmem => (List.mem_cons.mp hmem).elim (fun hobject => ?_) hw
    have hss := h.distinct s s' t t' ht ht' hobject
    subst hss
    change Function.update w.controller.tracker s none s = some t at hkept
    rw [Function.update_self] at hkept
    exact absurd hkept (by simp)
  | applicationExited t' ht' _ =>
    have hstopped : (stopTimer w t').removeApplicationTracker.stopped = t'.object :: w.stopped := by
      unfold removeApplicationTracker
      split <;> rfl
    rw [hstopped]
    exact fun hmem => (List.mem_cons.mp hmem).elim (h.apart s t ht t' ht') hw
  | unheard t' ht' hunconnected _ =>
    refine fun hmem => (List.mem_cons.mp hmem).elim (fun hobject => ?_) hw
    rw [h.eq_of_object ht ht' hobject, hunconnected] at hconnected
    exact absurd hconnected Bool.false_ne_true

theorem Watched.change {S : Launch → Prop} {s : Service} {w w' : World} (h : Coherent w)
    (hw : Watched s w) (hc : Change S w w') : Watched s w' := by
  intro t ht
  rcases tracker_of_change hc s with hsame | ⟨_, _, t', ht', hconnected, hobject, hstopped⟩ |
    ⟨_, hnone⟩
  · have hold := hsame.symm.trans ht
    obtain ⟨hconnected, hrunning⟩ := hw t hold
    exact ⟨hconnected, not_mem_stopped_of_change h hc hold hconnected hrunning ht⟩
  · obtain rfl : t = t' := Option.some.inj (ht.symm.trans ht')
    refine ⟨hconnected, fun hmem => ?_⟩
    rw [hstopped] at hmem
    exact absurd (h.stopped t.object hmem) (Nat.not_lt.mpr hobject)
  · exact absurd (hnone.symm.trans ht) (by simp)

theorem deaf_of_change {S : Launch → Prop} {w w' : World} (hc : Change S w w') {s : Service}
    {t : ProcessTracker} (ht : w.controller.tracker s = some t) (hdeaf : t.connected = false) :
    w'.controller.tracker s = some t := by
  rcases tracker_of_change hc s with hsame | ⟨hnone, _⟩ | ⟨⟨t', ht', hconnected, _⟩, _⟩
  · exact hsame.trans ht
  · exact absurd (hnone.symm.trans ht) (by simp)
  · obtain rfl : t = t' := Option.some.inj (ht.symm.trans ht')
    exact absurd (hconnected.symm.trans hdeaf) (by simp)

theorem idle_of_change {S : Launch → Prop} {w w' : World} (hc : Change S w w') {s : Service}
    (hS : ¬ S (.service s)) (h : w.controller.tracker s = none) : w'.controller.tracker s = none := by
  rcases tracker_of_change hc s with hsame | ⟨_, hs, _⟩ | ⟨_, hnone⟩
  · exact hsame.trans h
  · exact absurd hs hS
  · exact hnone

section Runs
variable (s : Service)

theorem Watched.step {w : World} (h : Coherent w) (hw : Watched s w) (e : Event) :
    Coherent (w.step e) ∧ Watched s (w.step e) := by
  have hchanges := h.changes_step e
  generalize w.step e = w' at hchanges ⊢
  induction hchanges with
  | refl => exact ⟨h, hw⟩
  | tail _ hc ih => exact ⟨ih.1.change hc, ih.2.change ih.1 hc⟩

theorem deaf_step {w : World} (h : Coherent w) {t : ProcessTracker}
    (ht : w.controller.tracker s = some t) (hdeaf : t.connected = false) (e : Event) :
    (w.step e).controller.tracker s = some t := by
  have hchanges := h.changes_step e
  generalize w.step e = w' at hchanges ⊢
  induction hchanges with
  | refl => exact ht
  | tail _ hc ih => exact deaf_of_change hc ih hdeaf

theorem idle_step {w : World} (h : Coherent w) (hidle : w.controller.tracker s = none)
    (e : Event) (he : ¬ startedBy e (.service s)) : (w.step e).controller.tracker s = none := by
  have hchanges := h.changes_step e
  generalize w.step e = w' at hchanges ⊢
  induction hchanges with
  | refl => exact hidle
  | tail _ hc ih => exact idle_of_change hc he ih

end Runs

theorem fileWatch_clears {w : World} (h : Coherent w) {s : Service} {t : ProcessTracker}
    (ht : w.controller.tracker s = some t) (hconnected : t.connected = true)
    (hrunning : t.object ∉ w.stopped) (hgone : w.os.find t.processId = none) :
    (w.fileWatch t.object).controller.tracker s = none := by
  have hheld : t ∈ w.heldTrackers := mem_heldTrackers.mpr (Or.inl ⟨s, ht⟩)
  have hfind : w.heldTrackers.find? (fun t' => t'.object = t.object) = some t := by
    cases hcase : w.heldTrackers.find? (fun t' => t'.object = t.object) with
    | none =>
      have hno := List.find?_eq_none.mp hcase t hheld
      simp at hno
    | some t' =>
      have hobject : t'.object = t.object := by simpa using List.find?_some hcase
      rw [h.eq_of_object ht (List.mem_of_find?_eq_some hcase) hobject.symm]
  have hwatch : ¬ (t.object ∈ w.stopped ∨ t.watchFileExists w.os = true) := by
    rw [ProcessTracker.watchFileExists, hgone]
    simp [hrunning]
  have heq : w.fileWatch t.object = (stopTimer w t).processExited t.object := by
    rw [fileWatch, hfind]
    simp only
    rw [if_neg hwatch, if_pos hconnected]
    rfl
  rw [heq]
  rcases processExited_cases (stopTimer w t) t.object with ⟨s', t', ht', hobject, heq'⟩ | ⟨hnone, _⟩
  · have hss : s' = s := h.distinct s' s t' t ht' ht hobject
    subst hss
    rw [heq']
    exact Function.update_self _ _ _
  · exact absurd rfl (hnone s t ht)

theorem fileWatch_of_find_ne_none {w : World} (h : Coherent w) {s : Service}
    {t : ProcessTracker} (ht : w.controller.tracker s = some t)
    (hused : w.os.find t.processId ≠ none) : w.fileWatch t.object = w := by
  rcases fileWatch_cases w t.object with heq | ⟨t', ht', hobject, _, hgone, _⟩
  · exact heq
  · rw [← h.eq_of_object ht ht' hobject.symm] at hgone
    exact absurd hgone hused

theorem discovered_stays {os : ProcessTable} {w : World} (h : Constructed os w) {s : Service}
    {t : ProcessTracker} (ht : w.controller.tracker s = some t) (es : List Event) :
    (run World.step w es).controller.tracker s = some t := by
  have hdeaf := h.unconnected t (mem_heldTrackers.mpr (Or.inl ⟨s, ht⟩))
  exact (run_invariant_always World.step
    (fun w => Coherent w ∧ w.controller.tracker s = some t)
    (fun w e hw => ⟨hw.1.step_coherent e, deaf_step s hw.1 hw.2 hdeaf e⟩) w es
    ⟨h.coherent, ht⟩).2

theorem watched_run {os : ProcessTable} {w : World} (h : Constructed os w) {s : Service}
    (hs : w.controller.tracker s = none) (es : List Event) :
    Watched s (run World.step w es) :=
  (run_invariant_always World.step (fun w => Coherent w ∧ Watched s w)
    (fun _ e hw => Watched.step s hw.1 hw.2 e) w es
    ⟨h.coherent, fun t ht => absurd (hs.symm.trans ht) (by simp)⟩).2

theorem idle_run {w : World} (h : Coherent w) {s : Service}
    (hs : w.controller.tracker s = none) (es : List Event) (hes : ∀ e ∈ es, ¬ startedBy e (.service s)) :
    (run World.step w es).controller.tracker s = none :=
  (run_invariant World.step (fun w => Coherent w ∧ w.controller.tracker s = none)
    (fun _ e => ¬ startedBy e (.service s))
    (fun _ e hw he => ⟨hw.1.step_coherent e, idle_step s hw.1 hw.2 e he⟩) w es ⟨h, hs⟩
    (along_of_forall World.step _ w es hes)).2

theorem flagFalls_of_watched {w : World} (h : Coherent w) {s : Service} {t : ProcessTracker}
    (ht : w.controller.tracker s = some t) (hw : Watched s w)
    (hgone : w.os.find t.processId = none) : FlagFalls w s t := by
  intro es hes
  obtain ⟨hconnected, hrunning⟩ := hw t ht
  have hcoherent := h.step_coherent (.fileWatch t.object)
  have hcleared : (w.step (.fileWatch t.object)).controller.tracker s = none :=
    fileWatch_clears (h.change (S := startedBy .stop) (Change.acted [])) ht hconnected hrunning
      hgone
  have hidle := idle_run hcoherent hcleared es hes
  exact ⟨running_eq_false_iff.mpr hidle, newProcess_step hidle⟩

/-- In every run the flag of a service that counts as running falls at the tick of its
    tracker, and the service can be started again, exactly when the constructor had not
    discovered it and the pid of the tracker has no process any more. -/
theorem flags_follow_processes (os : ProcessTable) (androidRootDir : String)
    (uninitialised : ℕ → Bool) (es : List Event) (s : Service) (t : ProcessTracker)
    (ht : (reached os androidRootDir uninitialised es).controller.tracker s = some t) :
    FlagFalls (reached os androidRootDir uninitialised es) s t ↔
      (construct os androidRootDir uninitialised).controller.running s = false ∧
        (reached os androidRootDir uninitialised es).os.find t.processId = none := by
  have hconstructed := constructed_construct os androidRootDir uninitialised
  have hcoherent := coherent_reached os androidRootDir uninitialised es
  constructor
  · intro hfalls
    have hfallen : ((reached os androidRootDir uninitialised es).step
        (.fileWatch t.object)).controller.running s = false :=
      (hfalls [] (List.forall_mem_nil _)).1
    constructor
    · by_contra hrunning
      rw [Bool.not_eq_false, running_eq_true_iff] at hrunning
      obtain ⟨t₀, ht₀⟩ := Option.ne_none_iff_exists'.mp hrunning
      have hstays := discovered_stays hconstructed ht₀ (es ++ [.fileWatch t.object])
      rw [run_append, run_cons, run_nil] at hstays
      exact absurd (hstays.symm.trans (running_eq_false_iff.mp hfallen)) (by simp)
    · by_contra hused
      have hsame := fileWatch_of_find_ne_none
        (hcoherent.change (S := startedBy .stop) (Change.acted [])) ht hused
      rw [World.step, perform, hsame] at hfallen
      exact absurd (ht.symm.trans (running_eq_false_iff.mp hfallen)) (by simp)
  · rintro ⟨hidle, hgone⟩
    exact flagFalls_of_watched hcoherent ht
      (watched_run hconstructed (running_eq_false_iff.mp hidle) es) hgone

theorem started_flag_falls :
    FlagFalls (reached ProcessTable.empty "/shashlik/android" (fun _ => false)
        [.start .adbd (some 5), .exit 5, .finished 0 0 .normalExit]) .adbd
      ⟨1, 5, ["/shashlik/android/system/bin/adbd"], true, some 0⟩ :=
  (flags_follow_processes ProcessTable.empty "/shashlik/android" (fun _ => false)
    [.start .adbd (some 5), .exit 5, .finished 0 0 .normalExit] .adbd
    ⟨1, 5, ["/shashlik/android/system/bin/adbd"], true, some 0⟩ (by decide +kernel)).mpr
    ⟨by decide +kernel, by decide +kernel⟩

def surfaceflingerTable : ProcessTable :=
  ProcessTable.empty.spawn 7 "/shashlik/android/system/bin/surfaceflinger" "surfaceflinger"

def surfaceflingerTracker : ProcessTracker :=
  ProcessTracker.new surfaceflingerTable 0 7 false

theorem discovered_flag_stays :
    let w := reached surfaceflingerTable "/shashlik/android" (fun _ => false) [.exit 7, .reap 7]
    w.controller.tracker .surfaceflinger = some surfaceflingerTracker ∧ w.os.processes = [] ∧
      ¬ FlagFalls w .surfaceflinger surfaceflingerTracker := by
  refine ⟨by decide +kernel, by decide +kernel, fun hfalls => ?_⟩
  exact absurd (hfalls [] (List.forall_mem_nil _)).1 (by decide +kernel)

end Shashlik.ControllerFlags
