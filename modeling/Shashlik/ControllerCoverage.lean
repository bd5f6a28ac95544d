import Shashlik.ControllerSignals

set_option autoImplicit false

/-!
# What `stop()` reaches

A process of the Controller that no tracker refers to is out of reach of `stop()`. There are
four ways to get there, and a run has a history of the processes that went one of them:
further instances that the constructor found and did not keep, processes started by `runAM`,
applications that an earlier `stop()` forgot, and applications whose tracker was removed when
another one reported an exit.
-/
namespace Shashlik.ControllerCoverage
open ProcessTables ProcessTrackers ServiceController World ControllerActions ControllerRuns
open ControllerSignals Relation SystemRuns

def processesOf (ts : List ProcessTracker) : List ℕ := ts.filterMap ProcessTracker.process

theorem mem_processesOf {ts : List ProcessTracker} {serial : ℕ} :
    serial ∈ processesOf ts ↔ ∃ t ∈ ts, t.process = some serial := List.mem_filterMap

def startedByAM (w : World) : Event → List ℕ
  | .runAM _ (some _) => [w.os.nextSerial]
  | _ => []

/-- The processes that an event leaves without a tracker. -/
def dropped (w : World) (e : Event) : List ℕ :=
  (processesOf w.controller.applicationTrackers).filter
    (fun serial => serial ∉ processesOf (w.step e).controller.applicationTrackers) ++
  startedByAM w e

structure History where
  world : World
  lost : List ℕ

def History.step (h : History) (e : Event) : History :=
  ⟨h.world.step e, h.lost ++ dropped h.world e⟩

def History.start (w : World) : History :=
  ⟨w, w.discovered.filter (fun serial => serial ∉ processesOf w.heldTrackers)⟩

def History.construct (os : ProcessTable) (androidRootDir : String) (uninitialised : ℕ → Bool) :
    History := History.start (World.construct os androidRootDir uninitialised)

/-- No process that was left without a tracker is alive when `stop()` is called. -/
def NothingLost (h : History) (e : Event) : Prop :=
  ∀ os, stopTable h.world e = some os → ∀ serial ∈ h.lost, ¬ os.Alive serial

/-- A call of `stop()` signals every process of the Controller that is alive. -/
def ReachesEverything (h : History) (e : Event) : Prop :=
  ∀ os, stopTable h.world e = some os → ∀ serial ∈ own h.world, os.Alive serial →
    ∃ p, p.serial = serial ∧ .kill p.pid (some p) ∈ (h.world.step e).actions

/-- Every live process of the Controller has a tracker or is in the history. -/
def Covered (h : History) : Prop :=
  ∀ serial ∈ own h.world, h.world.os.Alive serial →
    serial ∈ processesOf h.world.heldTrackers ∨ serial ∈ h.lost

theorem tracker_stays {S : Launch → Prop} {w w' : World} (h : Coherent w)
    (hc : Changes S w w') {s : Service} {t : ProcessTracker} {serial : ℕ}
    (ht : w.controller.tracker s = some t) (hserial : t.process = some serial)
    (halive : w'.os.Alive serial) : w'.controller.tracker s = some t := by
  induction hc with
  | refl => exact ht
  | @tail w₁ w₂ hbefore hchange ih =>
    have hcoherent := h.changes hbefore
    have hlt : serial < w₁.os.nextSerial :=
      (h.known serial (h.owned t (mem_heldTrackers.mpr (Or.inl ⟨s, ht⟩)) serial hserial)).trans_le
        (evolves_of_changes hbefore).serials
    have halive₁ := (evolves_of_change hchange).alive hlt halive
    have ht₁ := ih halive₁
    rcases tracker_of_change hchange s with hsame | ⟨hnone, _⟩ | ⟨⟨t', ht', _, hgone⟩, _⟩
    · exact hsame.trans ht₁
    · exact absurd (hnone.symm.trans ht₁) (by simp)
    · obtain rfl : t = t' := Option.some.inj (ht₁.symm.trans ht')
      obtain ⟨p, hp, _⟩ := (hcoherent.tracks t
        (mem_heldTrackers.mpr (Or.inl ⟨s, ht₁⟩))).find hserial halive₁
      exact absurd (hp.symm.trans hgone) (by simp)

theorem own_of_change {S : Launch → Prop} (happ : ¬ S .application) (hact : ¬ S .activity)
    {w w' : World} (hc : Change S w w') (serial : ℕ) (hs : serial ∈ own w') :
    serial ∈ own w ∨ ∃ s t, w'.controller.tracker s = some t ∧ t.process = some serial := by
  cases hc with
  | acted actions => exact Or.inl hs
  | table os hos => exact Or.inl hs
  | quitOnError newValue => exact Or.inl hs
  | started s r hr _ _ =>
    refine ((mem_own_started hr serial).mp hs).imp_right (fun hprocess => ?_)
    exact ⟨s, _, trackService_tracker s r, (hr.tracker_process _ _).trans hprocess⟩
  | application r _ hS => exact absurd hS happ
  | untracked r _ hS => exact absurd hS hact
  | forgot => exact Or.inl hs
  | exited s t _ _ _ => exact Or.inl hs
  | applicationExited t _ _ =>
    unfold removeApplicationTracker at hs
    split at hs <;> exact Or.inl hs
  | unheard t _ _ _ => exact Or.inl hs

theorem own_of_changes {S : Launch → Prop} (happ : ¬ S .application) (hact : ¬ S .activity)
    {w w' : World} (h : Coherent w) (hc : Changes S w w') (serial : ℕ) (hs : serial ∈ own w')
    (halive : w'.os.Alive serial) :
    serial ∈ own w ∨ ∃ s t, w'.controller.tracker s = some t ∧ t.process = some serial := by
  induction hc with
  | refl => exact Or.inl hs
  | @tail w₁ w₂ hbefore hchange ih =>
    have hcoherent := h.changes hbefore
    rcases own_of_change happ hact hchange serial hs with hs₁ | htracked
    · have halive₁ :=
        (evolves_of_change hchange).alive (hcoherent.known serial hs₁) halive
      refine (ih hs₁ halive₁).imp_right ?_
      rintro ⟨s, t, ht, hserial⟩
      exact ⟨s, t, tracker_stays hcoherent (ReflTransGen.single hchange) ht hserial halive,
        hserial⟩
    · exact Or.inr htracked

theorem own_runApk (w : World) (apkFile : String) (fileExists : String → Bool)
    (outcome : Option ℕ) (serial : ℕ)
    (hs : serial ∈ own (w.runApk apkFile fileExists outcome)) :
    serial ∈ own w ∨
      serial ∈ processesOf (w.runApk apkFile fileExists outcome).heldTrackers := by
  rcases runApk_cases w apkFile fileExists outcome with heq | ⟨r, hr, heq⟩
  · exact Or.inl (heq ▸ hs)
  · rw [heq] at hs ⊢
    refine ((mem_own_started hr serial).mp hs).imp_right (fun hprocess => ?_)
    refine mem_processesOf.mpr ⟨(r.1.newTracker r.2.processId).2, ?_,
      (hr.tracker_process _ _).trans hprocess⟩
    exact mem_heldTrackers.mpr (Or.inr (List.mem_append_right _ (List.mem_singleton_self _)))

theorem own_runAM (w : World) (arguments : String) (outcome : Option ℕ) (serial : ℕ)
    (hs : serial ∈ own (w.runAM arguments outcome)) :
    serial ∈ own w ∨ serial ∈ startedByAM w (.runAM arguments outcome) := by
  have hr := startProcess_started w (w.controller.androidRootDir ++ "/system/bin/shashlik_launcher")
    [w.controller.androidRootDir ++ "/system/bin/", "com.android.commands.am.Am", arguments]
    "ActivityManager" outcome
  refine ((mem_own_started hr serial).mp hs).imp_right (fun hprocess => ?_)
  cases outcome with
  | none => exact absurd hprocess (by simp [startProcess])
  | some hint => exact List.mem_singleton.mpr (Option.some.inj hprocess).symm

theorem own_step {w : World} (h : Coherent w) (e : Event) (serial : ℕ)
    (hs : serial ∈ own (w.step e)) (halive : (w.step e).os.Alive serial) :
    serial ∈ own w ∨ serial ∈ processesOf (w.step e).heldTrackers ∨
      serial ∈ startedByAM w e := by
  have hgeneral : ¬ startedBy e .application → ¬ startedBy e .activity →
      serial ∈ own w ∨ serial ∈ processesOf (w.step e).heldTrackers ∨
        serial ∈ startedByAM w e := by
    intro happ hact
    refine (own_of_changes happ hact h (h.changes_step e) serial hs halive).imp_right ?_
    rintro ⟨s, t, ht, hserial⟩
    exact Or.inl (mem_processesOf.mpr ⟨t, mem_heldTrackers.mpr (Or.inl ⟨s, ht⟩), hserial⟩)
  cases e with
  | runApk apkFile fileExists outcome =>
    exact (own_runApk { w with actions := [] } apkFile fileExists outcome serial hs).imp_right
      Or.inl
  | runAM arguments outcome =>
    exact (own_runAM { w with actions := [] } arguments outcome serial hs).imp_right Or.inr
  | start s outcome => exact hgeneral (by simp [startedBy]) (by simp [startedBy])
  | startAll outcomes => exact hgeneral (by simp [startedBy]) (by simp [startedBy])
  | restart outcomes => exact hgeneral (by simp [startedBy]) (by simp [startedBy])
  | _ => exact hgeneral id id

theorem Covered.step {h : History} (hcoherent : Coherent h.world) (hcovered : Covered h)
    (e : Event) : Covered (h.step e) := by
  intro serial hs halive
  have hchanges := hcoherent.changes_step e
  change serial ∈ processesOf (h.world.step e).heldTrackers ∨ serial ∈ h.lost ++ dropped h.world e
  rcases own_step hcoherent e serial hs halive with hold | hheld | hstarted
  · have hlive := (evolves_of_changes hchanges).alive (hcoherent.known serial hold) halive
    rcases hcovered serial hold hlive with htracked | hlost
    · obtain ⟨t, ht, hserial⟩ := mem_processesOf.mp htracked
      rcases mem_heldTrackers.mp ht with ⟨s, hservice⟩ | happ
      · have hstays := tracker_stays hcoherent hchanges hservice hserial halive
        exact Or.inl (mem_processesOf.mpr
          ⟨t, mem_heldTrackers.mpr (Or.inl ⟨s, hstays⟩), hserial⟩)
      · by_cases hkept :
          serial ∈ processesOf (h.world.step e).controller.applicationTrackers
        · obtain ⟨t', ht', hserial'⟩ := mem_processesOf.mp hkept
          exact Or.inl (mem_processesOf.mpr ⟨t', mem_heldTrackers.mpr (Or.inr ht'), hserial'⟩)
        · refine Or.inr (List.mem_append_right _ (List.mem_append_left _ ?_))
          exact List.mem_filter.mpr
            ⟨mem_processesOf.mpr ⟨t, happ, hserial⟩, decide_eq_true hkept⟩
    · exact Or.inr (List.mem_append_left _ hlost)
  · exact Or.inl hheld
  · exact Or.inr (List.mem_append_right _ (List.mem_append_right _ hstarted))

theorem covered_start (w : World) (h : w.children = []) : Covered (History.start w) := by
  intro serial hs _
  change serial ∈ own w at hs
  by_cases hheld : serial ∈ processesOf w.heldTrackers
  · exact Or.inl hheld
  · refine Or.inr (List.mem_filter.mpr ⟨?_, decide_eq_true hheld⟩)
    rwa [own, h, List.filterMap_nil, List.append_nil] at hs

theorem reachesEverything_step {h : History} (hcoherent : Coherent h.world)
    (hcovered : Covered h) {e : Event} (hlost : NothingLost h e) : ReachesEverything h e := by
  intro os hstop serial hs halive
  have hevolves := evolves_stopTable hstop
  have hlive := hevolves.alive (hcoherent.known serial hs) halive
  have htracked := (hcovered serial hs hlive).resolve_right
    (fun hmem => hlost os hstop serial hmem halive)
  obtain ⟨t, ht, hserial⟩ := mem_processesOf.mp htracked
  obtain ⟨p, hp, heq, _⟩ := ((hcoherent.tracks t ht).evolves hevolves).find hserial halive
  have hkill : killAction os t ∈ kills (h.world.step e) := by
    rw [kills_step, hstop]
    exact List.mem_map_of_mem ht
  have haction : killAction os t = .kill p.pid (some p) := by
    rw [killAction, hp, ((os.find_eq_some_iff _ p).mp hp).2]
  rw [haction] at hkill
  exact ⟨p, heq, (List.mem_filter.mp hkill).1⟩

/-- In every run in which no process that was left without a tracker is alive at a `stop()`,
    each `stop()` signals all live processes of the Controller. -/
theorem stop_reaches_everything (os : ProcessTable) (androidRootDir : String)
    (uninitialised : ℕ → Bool) (es : List Event)
    (h : Along History.step NothingLost (History.construct os androidRootDir uninitialised) es) :
    Along History.step ReachesEverything (History.construct os androidRootDir uninitialised) es := by
  have hconstructed := constructed_construct os androidRootDir uninitialised
  unfold History.construct at h ⊢
  generalize World.construct os androidRootDir uninitialised = w at hconstructed h ⊢
  exact along_of_invariant History.step (fun h => Coherent h.world ∧ Covered h) NothingLost _
    (fun _ e hh _ => ⟨hh.1.step_coherent e, hh.2.step hh.1 e⟩)
    (fun _ _ hh hlost => reachesEverything_step hh.1 hh.2 hlost) _ es
    ⟨hconstructed.coherent, covered_start w hconstructed.children⟩ h

theorem stop_reaches_adbd :
    Along History.step ReachesEverything
      (History.construct ProcessTable.empty "/shashlik/android" (fun _ => false))
      [.start .adbd (some 5), .stop] := by
  refine stop_reaches_everything ProcessTable.empty "/shashlik/android" (fun _ => false)
    [.start .adbd (some 5), .stop] ⟨fun os hos => absurd hos (by simp [stopTable]), ?_, trivial⟩
  intro os _ serial hserial
  have hlost : ((History.construct ProcessTable.empty "/shashlik/android" (fun _ => false)).step
      (.start .adbd (some 5))).lost = [] := by decide +kernel
  rw [hlost] at hserial
  exact absurd hserial List.not_mem_nil

theorem stop_misses_activity_manager :
    ¬ Along History.step ReachesEverything
      (History.construct ProcessTable.empty "/shashlik/android" (fun _ => false))
      [.runAM "start" (some 5), .stop] := by
  intro h
  have hown : 0 ∈ own ((History.construct ProcessTable.empty "/shashlik/android"
      (fun _ => false)).step (.runAM "start" (some 5))).world := by decide +kernel
  have halive : ((History.construct ProcessTable.empty "/shashlik/android"
      (fun _ => false)).step (.runAM "start" (some 5))).world.os.Alive 0 := by decide +kernel
  obtain ⟨p, _, hkill⟩ := h.2.1 _ rfl 0 hown halive
  have hactions : (((History.construct ProcessTable.empty "/shashlik/android"
      (fun _ => false)).step (.runAM "start" (some 5))).world.step .stop).actions = [] := by
    decide +kernel
  rw [hactions] at hkill
  exact absurd hkill List.not_mem_nil

end Shashlik.ControllerCoverage
