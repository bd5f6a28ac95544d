import Mathlib.Data.List.Nodup
import Mathlib.Order.Nat
import Mathlib.Tactic.Common

set_option autoImplicit false

/-!
# Process tables

The processes of an operating system. A pid is free again once its process was reaped, so a
pid may name several processes one after the other; serials are never used twice and tell
them apart. A process that exited stays in the table, as a zombie, until it is reaped.
-/
namespace ProcessTables

structure Process where
  pid : ℕ
  serial : ℕ
  exe : String
  cmdline : String
  alive : Bool
  deriving DecidableEq

structure ProcessTable where
  processes : List Process
  nextSerial : ℕ
  pid_pos : ∀ p ∈ processes, 0 < p.pid
  pids_nodup : (processes.map Process.pid).Nodup
  serial_lt : ∀ p ∈ processes, p.serial < nextSerial
  serials_nodup : (processes.map Process.serial).Nodup

namespace ProcessTable

def empty : ProcessTable := ⟨[], 0, by simp, by simp, by simp, by simp⟩

def find (t : ProcessTable) (pid : ℕ) : Option Process :=
  t.processes.find? (fun p => p.pid = pid)

/-- The process with that serial is there and no zombie. -/
def Alive (t : ProcessTable) (serial : ℕ) : Prop :=
  ∃ p ∈ t.processes, p.serial = serial ∧ p.alive = true

instance (t : ProcessTable) (serial : ℕ) : Decidable (t.Alive serial) :=
  inferInstanceAs (Decidable (∃ p ∈ t.processes, p.serial = serial ∧ p.alive = true))

/-- The pid asked for if it is free, and otherwise one that is. -/
def newPid (t : ProcessTable) (hint : ℕ) : ℕ :=
  if 0 < hint ∧ hint ∉ t.processes.map Process.pid then hint
  else (t.processes.map Process.pid).foldr max 0 + 1

theorem le_foldr_max (ns : List ℕ) (n : ℕ) (h : n ∈ ns) : n ≤ ns.foldr max 0 := by
  induction ns with
  | nil => exact absurd h List.not_mem_nil
  | cons m ns ih =>
    rw [List.foldr_cons]
    rcases List.mem_cons.mp h with rfl | h
    · exact Nat.le_max_left _ _
    · exact (ih h).trans (Nat.le_max_right _ _)

theorem newPid_spec (t : ProcessTable) (hint : ℕ) :
    0 < t.newPid hint ∧ t.newPid hint ∉ t.processes.map Process.pid := by
  unfold newPid
  split
  · assumption
  · refine ⟨Nat.succ_pos _, fun h => ?_⟩
    exact Nat.not_succ_le_self _ (le_foldr_max _ _ h)

def spawned (t : ProcessTable) (hint : ℕ) (exe cmdline : String) : Process :=
  ⟨t.newPid hint, t.nextSerial, exe, cmdline, true⟩

def spawn (t : ProcessTable) (hint : ℕ) (exe cmdline : String) : ProcessTable where
  processes := t.spawned hint exe cmdline :: t.processes
  nextSerial := t.nextSerial + 1
  pid_pos p hp := by
    rcases List.mem_cons.mp hp with rfl | hp
    · exact (t.newPid_spec hint).1
    · exact t.pid_pos p hp
  pids_nodup := List.nodup_cons.mpr ⟨(t.newPid_spec hint).2, t.pids_nodup⟩
  serial_lt p hp := by
    rcases List.mem_cons.mp hp with rfl | hp
    · exact Nat.lt_succ_self _
    · exact (t.serial_lt p hp).trans (Nat.lt_succ_self _)
  serials_nodup := by
    refine List.nodup_cons.mpr ⟨fun h => ?_, t.serials_nodup⟩
    obtain ⟨p, hp, heq⟩ := List.mem_map.mp h
    have hlt := t.serial_lt p hp
    rw [heq] at hlt
    exact absurd hlt (Nat.lt_irrefl _)

def exited (pid : ℕ) (p : Process) : Process :=
  if p.pid = pid then { p with alive := false } else p

@[simp] theorem exited_pid (pid : ℕ) (p : Process) : (exited pid p).pid = p.pid := by
  unfold exited
  split <;> rfl

@[simp] theorem exited_serial (pid : ℕ) (p : Process) : (exited pid p).serial = p.serial := by
  unfold exited
  split <;> rfl

theorem alive_of_exited (pid : ℕ) (p : Process) (h : (exited pid p).alive = true) :
    p.alive = true ∧ p.pid ≠ pid := by
  unfold exited at h
  split at h
  · exact absurd h Bool.false_ne_true
  · exact ⟨h, by assumption⟩

def exit (t : ProcessTable) (pid : ℕ) : ProcessTable where
  processes := t.processes.map (exited pid)
  nextSerial := t.nextSerial
  pid_pos p hp := by
    obtain ⟨p₀, hp₀, rfl⟩ := List.mem_map.mp hp
    rw [exited_pid]
    exact t.pid_pos p₀ hp₀
  pids_nodup := by
    rw [List.map_map]
    exact (List.map_congr_left (fun p _ => exited_pid pid p)) ▸ t.pids_nodup
  serial_lt p hp := by
    obtain ⟨p₀, hp₀, rfl⟩ := List.mem_map.mp hp
    rw [exited_serial]
    exact t.serial_lt p₀ hp₀
  serials_nodup := by
    rw [List.map_map]
    exact (List.map_congr_left (fun p _ => exited_serial pid p)) ▸ t.serials_nodup

def reap (t : ProcessTable) (serial : ℕ) : ProcessTable where
  processes := t.processes.filter (fun p => p.serial ≠ serial)
  nextSerial := t.nextSerial
  pid_pos p hp := t.pid_pos p (List.mem_filter.mp hp).1
  pids_nodup := t.pids_nodup.sublist (List.filter_sublist.map _)
  serial_lt p hp := t.serial_lt p (List.mem_filter.mp hp).1
  serials_nodup := t.serials_nodup.sublist (List.filter_sublist.map _)

theorem find_eq_some_iff (t : ProcessTable) (pid : ℕ) (p : Process) :
    t.find pid = some p ↔ p ∈ t.processes ∧ p.pid = pid := by
  constructor
  · intro h
    exact ⟨List.mem_of_find?_eq_some h, by simpa using List.find?_some h⟩
  · rintro ⟨hp, rfl⟩
    cases h : t.find p.pid with
    | none =>
      have hne := List.find?_eq_none.mp h p hp
      simp at hne
    | some p' =>
      have hp' := List.mem_of_find?_eq_some h
      have hpid : p'.pid = p.pid := by simpa using List.find?_some h
      rw [List.inj_on_of_nodup_map t.pids_nodup hp' hp hpid]

theorem find_eq_none_iff (t : ProcessTable) (pid : ℕ) :
    t.find pid = none ↔ ∀ p ∈ t.processes, p.pid ≠ pid := by
  simp [find]

theorem find_zero (t : ProcessTable) : t.find 0 = none := by
  rw [t.find_eq_none_iff]
  intro p hp hzero
  exact absurd (t.pid_pos p hp) (by omega)

theorem find_spawned (t : ProcessTable) (hint : ℕ) (exe cmdline : String) :
    (t.spawn hint exe cmdline).find (t.newPid hint) = some (t.spawned hint exe cmdline) :=
  (find_eq_some_iff _ _ _).mpr ⟨List.mem_cons_self, rfl⟩

theorem eq_of_serial_eq (t : ProcessTable) {p p' : Process} (hp : p ∈ t.processes)
    (hp' : p' ∈ t.processes) (h : p.serial = p'.serial) : p = p' :=
  List.inj_on_of_nodup_map t.serials_nodup hp hp' h

/-- What time can do to a table: new processes get new serials, and the earlier ones keep
    their pids and do not come back to life. -/
structure Evolves (t t' : ProcessTable) : Prop where
  serials : t.nextSerial ≤ t'.nextSerial
  earlier : ∀ p' ∈ t'.processes, p'.serial < t.nextSerial →
    ∃ p ∈ t.processes, p.serial = p'.serial ∧ p.pid = p'.pid ∧ (p'.alive = true → p.alive = true)

theorem Evolves.refl (t : ProcessTable) : Evolves t t :=
  ⟨Nat.le_refl _, fun p hp _ => ⟨p, hp, rfl, rfl, id⟩⟩

theorem Evolves.trans {t t' t'' : ProcessTable} (h : Evolves t t') (h' : Evolves t' t'') :
    Evolves t t'' := by
  refine ⟨h.serials.trans h'.serials, fun p'' hp'' hlt => ?_⟩
  obtain ⟨p', hp', hserial', hpid', halive'⟩ := h'.earlier p'' hp'' (hlt.trans_le h.serials)
  obtain ⟨p, hp, hserial, hpid, halive⟩ := h.earlier p' hp' (hserial' ▸ hlt)
  exact ⟨p, hp, hserial.trans hserial', hpid.trans hpid', halive ∘ halive'⟩

theorem evolves_spawn (t : ProcessTable) (hint : ℕ) (exe cmdline : String) :
    Evolves t (t.spawn hint exe cmdline) := by
  refine ⟨Nat.le_succ _, fun p hp hlt => ?_⟩
  rcases List.mem_cons.mp hp with rfl | hp
  · exact absurd hlt (Nat.lt_irrefl _)
  · exact ⟨p, hp, rfl, rfl, id⟩

theorem evolves_exit (t : ProcessTable) (pid : ℕ) : Evolves t (t.exit pid) := by
  refine ⟨Nat.le_refl _, fun p hp _ => ?_⟩
  obtain ⟨p₀, hp₀, rfl⟩ := List.mem_map.mp hp
  exact ⟨p₀, hp₀, (exited_serial pid p₀).symm, (exited_pid pid p₀).symm,
    fun h => (alive_of_exited pid p₀ h).1⟩

theorem evolves_reap (t : ProcessTable) (serial : ℕ) : Evolves t (t.reap serial) :=
  ⟨Nat.le_refl _, fun p hp _ => ⟨p, (List.mem_filter.mp hp).1, rfl, rfl, id⟩⟩

theorem Evolves.alive {t t' : ProcessTable} (h : Evolves t t') {serial : ℕ}
    (hlt : serial < t.nextSerial) (halive : t'.Alive serial) : t.Alive serial := by
  obtain ⟨p', hp', rfl, ha⟩ := halive
  obtain ⟨p, hp, hserial, _, hold⟩ := h.earlier p' hp' hlt
  exact ⟨p, hp, hserial, hold ha⟩

theorem alive_reap_iff (t : ProcessTable) (serial serial' : ℕ) :
    (t.reap serial).Alive serial' ↔ t.Alive serial' ∧ serial' ≠ serial := by
  constructor
  · rintro ⟨p, hp, rfl, halive⟩
    obtain ⟨hmem, hne⟩ := List.mem_filter.mp hp
    exact ⟨⟨p, hmem, rfl, halive⟩, of_decide_eq_true hne⟩
  · rintro ⟨⟨p, hp, rfl, halive⟩, hne⟩
    exact ⟨p, List.mem_filter.mpr ⟨hp, decide_eq_true hne⟩, rfl, halive⟩

theorem alive_spawn_iff (t : ProcessTable) (hint : ℕ) (exe cmdline : String) (serial : ℕ) :
    (t.spawn hint exe cmdline).Alive serial ↔ serial = t.nextSerial ∨ t.Alive serial := by
  unfold Alive spawn
  rw [List.exists_mem_cons_iff, spawned, eq_comm]
  simp

end ProcessTable

end ProcessTables
