import Shashlik.Library.ProcessTables

set_option autoImplicit false

/-!
# Tracking a process by its pid

A `ProcessTracker` is given a pid once. It watches `/proc/<pid>` with a timer, reports the
exit when the directory is gone, and sends signals to whatever has the pid by then.
-/
namespace Shashlik.ProcessTrackers
open ProcessTables

/-- The pieces of `/proc/<pid>/cmdline`, `arg` being the one that is read. Reading at the end
    gives the NUL behind an empty string. -/
def readArguments : List Char → List Char → List String
  | arg, [] => [String.ofList arg]
  | arg, chr :: rest =>
    if chr = Char.ofNat 0 then
      if rest = [] then [String.ofList arg] else String.ofList arg :: readArguments [] rest
    else readArguments (arg ++ [chr]) rest

structure ProcessTracker where
  object : ℕ
  processId : ℕ
  arguments : List String
  /-- Whether `processExited()` reaches the slot of the Controller. -/
  connected : Bool
  /-- The process that had the pid when the tracker was made; the program has no such data. -/
  process : Option ℕ
  deriving DecidableEq

def ProcessTracker.new (os : ProcessTable) (object processId : ℕ) (connected : Bool) :
    ProcessTracker where
  object := object
  processId := processId
  arguments := ((os.find processId).map (fun p => readArguments [] p.cmdline.toList)).getD []
  connected := connected
  process := (os.find processId).map Process.serial

/-- `watchFile.exists()`: a zombie still has its directory. -/
def ProcessTracker.watchFileExists (os : ProcessTable) (t : ProcessTracker) : Bool :=
  (os.find t.processId).isSome

def newTrackers (os : ProcessTable) : ℕ → List Process → List ProcessTracker
  | _, [] => []
  | object, p :: ps =>
    ProcessTracker.new os object p.pid false :: newTrackers os (object + 1) ps

/-- The processes whose binary is the given file; `/proc/<pid>/exe` of a zombie leads
    nowhere. -/
def runningBinary (os : ProcessTable) (executableFilePath : String) : List Process :=
  os.processes.filter (fun p => p.alive ∧ p.exe = executableFilePath)

def getTrackers (os : ProcessTable) (object : ℕ) (executableFilePath : String) :
    List ProcessTracker :=
  newTrackers os object (runningBinary os executableFilePath)

/-- A tracker knows its process: whoever has its serial has its pid. -/
def Tracks (os : ProcessTable) (t : ProcessTracker) : Prop :=
  ∀ serial, t.process = some serial → serial < os.nextSerial ∧
    ∀ p ∈ os.processes, p.serial = serial → p.pid = t.processId

theorem tracks_new (os : ProcessTable) (object processId : ℕ) (connected : Bool) :
    Tracks os (ProcessTracker.new os object processId connected) := by
  intro serial h
  obtain ⟨p, hp, rfl⟩ := Option.map_eq_some_iff.mp h
  obtain ⟨hmem, hpid⟩ := (os.find_eq_some_iff processId p).mp hp
  refine ⟨os.serial_lt p hmem, fun p' hp' heq => ?_⟩
  rw [os.eq_of_serial_eq hp' hmem heq]
  exact hpid

theorem Tracks.evolves {os os' : ProcessTable} {t : ProcessTracker} (h : Tracks os t)
    (he : ProcessTable.Evolves os os') : Tracks os' t := by
  intro serial hs
  obtain ⟨hlt, hpid⟩ := h serial hs
  refine ⟨hlt.trans_le he.serials, fun p' hp' heq => ?_⟩
  obtain ⟨p, hp, hserial, hsame, _⟩ := he.earlier p' hp' (heq ▸ hlt)
  rw [← hsame]
  exact hpid p hp (hserial.trans heq)

theorem Tracks.find {os : ProcessTable} {t : ProcessTracker} (h : Tracks os t) {serial : ℕ}
    (hs : t.process = some serial) (halive : os.Alive serial) :
    ∃ p, os.find t.processId = some p ∧ p.serial = serial ∧ p.alive = true := by
  obtain ⟨p, hp, rfl, ha⟩ := halive
  exact ⟨p, (os.find_eq_some_iff _ p).mpr ⟨hp, (h p.serial hs).2 p hp rfl⟩, rfl, ha⟩

theorem length_newTrackers (os : ProcessTable) (object : ℕ) (ps : List Process) :
    (newTrackers os object ps).length = ps.length := by
  induction ps generalizing object with
  | nil => rfl
  | cons p ps ih => rw [newTrackers, List.length_cons, ih, List.length_cons]

theorem mem_newTrackers (os : ProcessTable) (object : ℕ) (ps : List Process)
    (t : ProcessTracker) (h : t ∈ newTrackers os object ps) :
    object ≤ t.object ∧ t.object < object + ps.length ∧
      ∃ p ∈ ps, t = ProcessTracker.new os t.object p.pid false := by
  induction ps generalizing object with
  | nil => exact absurd h List.not_mem_nil
  | cons p ps ih =>
    rw [List.length_cons]
    rcases List.mem_cons.mp h with rfl | h
    · refine ⟨Nat.le_refl _, ?_, p, List.mem_cons_self, rfl⟩
      change object < object + (ps.length + 1)
      omega
    · obtain ⟨hle, hlt, p', hp', heq⟩ := ih (object + 1) h
      exact ⟨by omega, by omega, p', List.mem_cons_of_mem _ hp', heq⟩

theorem newTrackers_distinct (os : ProcessTable) (object : ℕ) (ps : List Process) :
    (newTrackers os object ps).Pairwise (fun t t' => t.object ≠ t'.object) := by
  induction ps generalizing object with
  | nil => exact List.Pairwise.nil
  | cons p ps ih =>
    refine List.pairwise_cons.mpr ⟨fun t ht => ?_, ih (object + 1)⟩
    have hle := (mem_newTrackers os (object + 1) ps t ht).1
    change object ≠ t.object
    omega

theorem mem_getTrackers (os : ProcessTable) (object : ℕ) (executableFilePath : String)
    (t : ProcessTracker) (h : t ∈ getTrackers os object executableFilePath) :
    t.connected = false ∧ Tracks os t ∧
      ∃ p ∈ runningBinary os executableFilePath, t.process = some p.serial ∧
        os.Alive p.serial := by
  obtain ⟨_, _, p, hp, heq⟩ := mem_newTrackers os object _ t h
  obtain ⟨hmem, hrunning⟩ := List.mem_filter.mp hp
  have hfind : os.find p.pid = some p := (os.find_eq_some_iff p.pid p).mpr ⟨hmem, rfl⟩
  rw [heq]
  refine ⟨rfl, tracks_new _ _ _ _, p, hp, ?_, p, hmem, rfl, ?_⟩
  · change (os.find p.pid).map Process.serial = some p.serial
    rw [hfind]
    rfl
  · exact (of_decide_eq_true hrunning).1

end Shashlik.ProcessTrackers
