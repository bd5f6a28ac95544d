import Shashlik.SocketSetup

set_option autoImplicit false

/-!
# The sockets of the daemons and their descriptors

The socket setup with the descriptors that it opens. A `create_socket` that fails takes back
what it did; `main` returns its error, and takes back nothing of the sockets before it.
-/
namespace Shashlik.SocketDescriptors
open SocketSetup

/-- An open descriptor of a socket, with what the socket was bound to. -/
structure Descriptor where
  fd : ℕ
  bound : Option ℕ
  deriving DecidableEq

/-- The socket directory and the descriptors of this process, the latest one first. -/
structure Process where
  directory : SocketDirectory
  descriptors : List Descriptor

namespace Process

def socket (p : Process) (fd : ℕ) : Process :=
  { p with descriptors := ⟨fd, none⟩ :: p.descriptors }

def close (p : Process) (fd : ℕ) : Process :=
  { p with descriptors := p.descriptors.eraseP (fun o => o.fd = fd) }

def unlink (p : Process) (path : String) (denied : Bool) : Option Errno × Process :=
  let unlinked := p.directory.unlink path denied
  (unlinked.1, { p with directory := unlinked.2 })

def setBound (fd socket : ℕ) : List Descriptor → List Descriptor
  | [] => []
  | o :: os =>
    if o.fd = fd then { o with bound := some socket } :: os else o :: setBound fd socket os

def bind (p : Process) (fd : ℕ) (path : String) (denied : Bool) : Option Errno × Process :=
  let bound := p.directory.bind path denied
  (bound.1, ⟨bound.2,
    if bound.1 = none then setBound fd p.directory.nextSocket p.descriptors else p.descriptors⟩)

def createSocket (p : Process) (name : String) (answers : SocketAnswers) : ℤ × Process :=
  match answers.fd with
  | none => (-1, p)
  | some fd =>
    let unlinked := (p.socket fd).unlink (sunPath name) answers.unlinkDenied
    if unlinked.1 ≠ none ∧ unlinked.1 ≠ some .ENOENT then (-1, unlinked.2.close fd)
    else
      let bound := unlinked.2.bind fd (sunPath name) answers.bindDenied
      if bound.1 ≠ none then
        (-1, (bound.2.unlink (sunPath name) answers.cleanupDenied).2.close fd)
      else (fd, bound.2)

end Process

structure Outcome where
  returned : Option ℤ
  environment : List (String × ℤ)
  process : Process

def Process.createSockets (answers : String → SocketAnswers) :
    List String → List (String × ℤ) → Process → Outcome
  | [], environment, p => ⟨none, environment, p⟩
  | name :: names, environment, p =>
    let created := p.createSocket name (answers name)
    if created.1 < 0 then ⟨some created.1, environment, created.2⟩
    else Process.createSockets answers names
      (environment ++ [("ANDROID_SOCKET_" ++ name, created.1)]) created.2

/-! ### One socket -/

/-- Every call on the way to a bound socket succeeds. -/
structure Succeeds (answers : SocketAnswers) : Prop where
  socket : answers.fd ≠ none
  unlink : answers.unlinkDenied = false
  bind : answers.bindDenied = false

theorem createSocket_directory (p : Process) (name : String) (answers : SocketAnswers) :
    Prod.map id Process.directory (p.createSocket name answers) =
      createSocket name answers p.directory := by
  unfold Process.createSocket createSocket
  cases answers.fd with
  | none => rfl
  | some fd =>
    change Prod.map id Process.directory (ite _ _ _) = ite _ _ _
    rw [apply_ite (Prod.map id Process.directory)]
    refine if_congr Iff.rfl rfl ?_
    change Prod.map id Process.directory (ite _ _ _) = ite _ _ _
    rw [apply_ite (Prod.map id Process.directory)]
    exact if_congr Iff.rfl rfl rfl

theorem createSocket_status (p : Process) (name : String) (answers : SocketAnswers) :
    (p.createSocket name answers).1 = (createSocket name answers p.directory).1 :=
  congrArg Prod.fst (createSocket_directory p name answers)

theorem directory_createSocket (p : Process) (name : String) (answers : SocketAnswers) :
    (p.createSocket name answers).2.directory = (createSocket name answers p.directory).2 :=
  congrArg Prod.snd (createSocket_directory p name answers)

theorem bind_unlinked (d : SocketDirectory) (path : String) :
    ((d.unlink path false).2.bind path false) =
      (none, (d.unlink path false).2.add path) := by
  have hfree := (unlink_allowed d path).1
  rw [SocketDirectory.bind, if_neg (by simp),
    if_neg (by simp [SocketDirectory.hasFile, hfree])]

theorem createSocket_succeeds (p : Process) (name : String) {answers : SocketAnswers}
    (h : Succeeds answers) : ∃ fd d', answers.fd = some fd ∧
      p.createSocket name answers =
        ((fd : ℤ), ⟨d', ⟨fd, some p.directory.nextSocket⟩ :: p.descriptors⟩) ∧
      d'.files (sunPath name) = some p.directory.nextSocket ∧
      d'.nextSocket = p.directory.nextSocket + 1 := by
  obtain ⟨hsocket, hunlink, hbind⟩ := h
  obtain ⟨fd, hfd⟩ := Option.ne_none_iff_exists'.mp hsocket
  have hnext := unlink_nextSocket p.directory (sunPath name) false
  refine ⟨fd, (p.directory.unlink (sunPath name) false).2.add (sunPath name), hfd, ?_, ?_, ?_⟩
  · unfold Process.createSocket
    simp only [hfd, hunlink, hbind, Process.unlink, Process.socket]
    rw [if_neg (by rcases (unlink_allowed p.directory (sunPath name)).2 with h | h <;> simp [h])]
    simp only [Process.bind, bind_unlinked, ne_eq, not_true_eq_false, if_false, if_true]
    rw [Process.setBound, if_pos rfl, hnext]
  · rw [add_files_self, hnext]
  · rw [← hnext]
    rfl

theorem eraseP_opened (fd : ℕ) (os : List Descriptor) :
    (⟨fd, none⟩ :: os : List Descriptor).eraseP (fun o => o.fd = fd) = os :=
  List.eraseP_cons_of_pos (by simp)

theorem unlink_files_le (d : SocketDirectory) (path path' : String) (denied : Bool) :
    (d.unlink path denied).2.files path' = d.files path' ∨
      (d.unlink path denied).2.files path' = none := by
  unfold SocketDirectory.unlink
  split
  · exact Or.inl rfl
  · split
    · by_cases he : path' = path
      · exact Or.inr (by rw [he]; exact Function.update_self _ _ _)
      · exact Or.inl (Function.update_of_ne he _ _)
    · exact Or.inl rfl

theorem bind_refused {d : SocketDirectory} {path : String} {denied : Bool}
    (h : (d.bind path denied).1 ≠ none) : (d.bind path denied).2 = d := by
  unfold SocketDirectory.bind at h ⊢
  split
  · rfl
  · split
    · rfl
    · rename_i hdenied hfile
      rw [if_neg hdenied, if_neg hfile] at h
      exact absurd rfl h

theorem createSocket_fails (p : Process) (name : String) {answers : SocketAnswers}
    (h : ¬ Succeeds answers) : ∃ d', p.createSocket name answers = (-1, ⟨d', p.descriptors⟩) ∧
      ∀ path, d'.files path = p.directory.files path ∨ d'.files path = none := by
  unfold Process.createSocket
  cases hfd : answers.fd with
  | none => exact ⟨p.directory, rfl, fun _ => Or.inl rfl⟩
  | some fd =>
    simp only [Process.unlink, Process.socket, Process.close]
    by_cases hunlinked : (p.directory.unlink (sunPath name) answers.unlinkDenied).1 ≠ none ∧
        (p.directory.unlink (sunPath name) answers.unlinkDenied).1 ≠ some .ENOENT
    · refine ⟨(p.directory.unlink (sunPath name) answers.unlinkDenied).2, ?_,
        fun path => unlink_files_le p.directory (sunPath name) path _⟩
      refine (if_pos hunlinked).trans ?_
      rw [eraseP_opened]
    · have hunlink : answers.unlinkDenied = false := by
        rw [← Bool.not_eq_true]
        intro hdenied
        exact hunlinked (by simp [hdenied, SocketDirectory.unlink])
      have hbind : answers.bindDenied = true := by
        rw [← Bool.not_eq_false]
        exact fun hbind => h ⟨by simp [hfd], hunlink, hbind⟩
      have hrefused : ((p.directory.unlink (sunPath name) answers.unlinkDenied).2.bind
          (sunPath name) answers.bindDenied).1 ≠ none := by
        simp [hbind, SocketDirectory.bind]
      refine ⟨((p.directory.unlink (sunPath name) answers.unlinkDenied).2.unlink
        (sunPath name) answers.cleanupDenied).2, ?_, fun path => ?_⟩
      · refine ((if_neg hunlinked).trans (if_pos hrefused)).trans ?_
        simp only [Process.bind]
        rw [if_neg hrefused, eraseP_opened, bind_refused hrefused]
      · rcases unlink_files_le (p.directory.unlink (sunPath name) answers.unlinkDenied).2
          (sunPath name) path answers.cleanupDenied with hsame | hnone
        · rw [hsame]
          exact unlink_files_le _ _ _ _
        · exact Or.inr hnone

/-! ### The three sockets -/

/-- The socket is bound, and its descriptor is open and in the environment. -/
def Exported (p : Process) (r : Outcome) (name : String) : Prop :=
  ∃ (fd socket : ℕ), ("ANDROID_SOCKET_" ++ name, (fd : ℤ)) ∈ r.environment ∧
    ⟨fd, some socket⟩ ∈ r.process.descriptors ∧
      BoundBetween p.directory r.process.directory (sunPath name) socket

/-- Nothing that the calls made is left. -/
def Undone (p : Process) (r : Outcome) : Prop :=
  (∀ path socket, ¬ BoundBetween p.directory r.process.directory path socket) ∧
    r.process.descriptors = p.descriptors

def AllOrNothing (p : Process) (r : Outcome) : Prop :=
  (r.returned = none ∧ ∀ name ∈ socketNames, Exported p r name) ∨
    ∃ status < 0, r.returned = some status ∧ Undone p r

theorem createSockets_setup (answers : String → SocketAnswers) (names : List String)
    (environment : List (String × ℤ)) (p : Process) :
    let r := Process.createSockets answers names environment p
    createSockets answers names environment p.directory =
      ⟨r.returned, r.environment, r.process.directory⟩ := by
  induction names generalizing environment p with
  | nil => rfl
  | cons name names ih =>
    rw [createSockets, Process.createSockets, ← createSocket_status p name (answers name),
      ← directory_createSocket p name (answers name)]
    split
    · rfl
    · exact ih _ _

theorem createSockets_directory (answers : String → SocketAnswers) (names : List String)
    (environment : List (String × ℤ)) (p : Process) :
    (Process.createSockets answers names environment p).process.directory =
      (createSockets answers names environment p.directory).directory :=
  (congrArg Setup.directory (createSockets_setup answers names environment p)).symm

theorem createSockets_fails {answers : String → SocketAnswers} {name : String}
    (h : ¬ Succeeds (answers name)) (names : List String) (environment : List (String × ℤ))
    (p : Process) : Process.createSockets answers (name :: names) environment p =
      ⟨some (-1), environment, (p.createSocket name (answers name)).2⟩ := by
  obtain ⟨d', hcreated, -⟩ := createSocket_fails p name h
  rw [Process.createSockets, hcreated]
  rfl

theorem createSockets_goes_on {answers : String → SocketAnswers} {name : String}
    (h : Succeeds (answers name)) (names : List String) (environment : List (String × ℤ))
    (p : Process) : ∃ (fd : ℕ) (d' : SocketDirectory),
      d'.files (sunPath name) = some p.directory.nextSocket ∧
      d'.nextSocket = p.directory.nextSocket + 1 ∧
      Process.createSockets answers (name :: names) environment p =
        Process.createSockets answers names
          (environment ++ [("ANDROID_SOCKET_" ++ name, (fd : ℤ))])
          ⟨d', ⟨fd, some p.directory.nextSocket⟩ :: p.descriptors⟩ := by
  obtain ⟨fd, d', -, hcreated, hfile, hnext⟩ := createSocket_succeeds p name h
  refine ⟨fd, d', hfile, hnext, ?_⟩
  rw [Process.createSockets, hcreated]
  simp only
  rw [if_neg (by simp)]

theorem returned_eq_none_iff (answers : String → SocketAnswers) (names : List String)
    (environment : List (String × ℤ)) (p : Process) :
    (Process.createSockets answers names environment p).returned = none ↔
      ∀ name ∈ names, Succeeds (answers name) := by
  induction names generalizing environment p with
  | nil => simp [Process.createSockets]
  | cons name names ih =>
    rw [List.forall_mem_cons]
    by_cases h : Succeeds (answers name)
    · obtain ⟨fd, d', -, -, hrest⟩ := createSockets_goes_on h names environment p
      rw [hrest, ih]
      exact (and_iff_right h).symm
    · rw [createSockets_fails h names environment p]
      exact iff_of_false (by simp) (fun hall => h hall.1)

/-- What the later calls leave of what the earlier ones have done. -/
structure Extends (environment : List (String × ℤ)) (p : Process) (r : Outcome) : Prop where
  environment : ∀ entry ∈ environment, entry ∈ r.environment
  descriptors : ∀ o ∈ p.descriptors, o ∈ r.process.descriptors

theorem createSockets_extends (answers : String → SocketAnswers) (names : List String)
    (environment : List (String × ℤ)) (p : Process) :
    Extends environment p (Process.createSockets answers names environment p) := by
  induction names generalizing environment p with
  | nil => exact ⟨fun _ h => h, fun _ h => h⟩
  | cons name names ih =>
    by_cases h : Succeeds (answers name)
    · obtain ⟨fd, d', -, -, hrest⟩ := createSockets_goes_on h names environment p
      rw [hrest]
      obtain ⟨henvironment, hdescriptors⟩ := ih
        (environment ++ [("ANDROID_SOCKET_" ++ name, (fd : ℤ))])
        ⟨d', ⟨fd, some p.directory.nextSocket⟩ :: p.descriptors⟩
      exact ⟨fun entry he => henvironment entry (List.mem_append_left _ he),
        fun o ho => hdescriptors o (List.mem_cons_of_mem _ ho)⟩
    · obtain ⟨d', hcreated, -⟩ := createSocket_fails p name h
      rw [createSockets_fails h names environment p, hcreated]
      exact ⟨fun _ h => h, fun _ h => h⟩

theorem createSockets_exported (answers : String → SocketAnswers) (names : List String)
    (environment : List (String × ℤ)) (p : Process) (hpaths : (names.map sunPath).Nodup)
    (h : ∀ name ∈ names, Succeeds (answers name)) :
    ∀ name ∈ names, Exported p (Process.createSockets answers names environment p) name := by
  induction names generalizing environment p with
  | nil => simp
  | cons name names ih =>
    rw [List.forall_mem_cons] at h
    rw [List.map_cons, List.nodup_cons] at hpaths
    obtain ⟨fd, d', hfile, hnext, hrest⟩ := createSockets_goes_on h.1 names environment p
    rw [hrest, List.forall_mem_cons]
    constructor
    · refine ⟨fd, p.directory.nextSocket, ?_, ?_, ?_, Nat.le_refl _⟩
      · exact (createSockets_extends answers names _ _).environment _ (by simp)
      · exact (createSockets_extends answers names _ _).descriptors _ (by simp)
      · rw [createSockets_directory, createSockets_other answers names _ _ (sunPath name)]
        · exact hfile
        · intro name' hname' he
          exact hpaths.1 (List.mem_map.mpr ⟨name', hname', he.symm⟩)
    · intro name' hname'
      obtain ⟨fd', socket, henvironment, hdescriptor, hbound, hle⟩ := ih
        (environment ++ [("ANDROID_SOCKET_" ++ name, (fd : ℤ))])
        ⟨d', ⟨fd, some p.directory.nextSocket⟩ :: p.descriptors⟩ hpaths.2 h.2 name' hname'
      have hle' : d'.nextSocket ≤ socket := hle
      exact ⟨fd', socket, henvironment, hdescriptor, hbound, by omega⟩

theorem sunPaths_nodup : (socketNames.map sunPath).Nodup := by decide +kernel

theorem installd_stays {answers : String → SocketAnswers} (h : Succeeds (answers "installd"))
    (p : Process) : BoundBetween p.directory
      (Process.createSockets answers socketNames [] p).process.directory (sunPath "installd")
        p.directory.nextSocket := by
  obtain ⟨fd, d', hfile, -, hrest⟩ := createSockets_goes_on h ["zygote", "adbd"] [] p
  refine ⟨?_, Nat.le_refl _⟩
  rw [socketNames, hrest, createSockets_directory,
    createSockets_other answers ["zygote", "adbd"] _ _ (sunPath "installd") sunPath_installd_ne]
  exact hfile

theorem undone_of_installd_failed {answers : String → SocketAnswers}
    (h : ¬ Succeeds (answers "installd")) (p : Process) :
    Undone p (Process.createSockets answers socketNames [] p) := by
  obtain ⟨d', hcreated, hfiles⟩ := createSocket_fails p "installd" h
  rw [socketNames, createSockets_fails h ["zygote", "adbd"] [] p, hcreated]
  refine ⟨fun path socket hbound => ?_, rfl⟩
  have hfile : d'.files path = some socket := hbound.1
  rcases hfiles path with hsame | hnone
  · rw [hsame] at hfile
    have hlt := p.directory.fresh path socket hfile
    have hle := hbound.2
    omega
  · rw [hnone] at hfile
    exact absurd hfile (by simp)

/-- The setup is all or nothing exactly if all the calls of the three sockets succeed, or one
    of the first socket's fails. -/
theorem all_or_nothing_iff (answers : String → SocketAnswers) (p : Process) :
    AllOrNothing p (Process.createSockets answers socketNames [] p) ↔
      (∀ name ∈ socketNames, Succeeds (answers name)) ∨ ¬ Succeeds (answers "installd") := by
  have hreturned := returned_eq_none_iff answers socketNames [] p
  constructor
  · rintro (⟨hnone, -⟩ | ⟨status, -, -, hundone⟩)
    · exact Or.inl (hreturned.mp hnone)
    · exact Or.inr fun h => hundone.1 _ _ (installd_stays h p)
  · rintro (hall | hfirst)
    · exact Or.inl ⟨hreturned.mpr hall,
        createSockets_exported answers socketNames [] p sunPaths_nodup hall⟩
    · refine Or.inr ⟨-1, by decide, ?_, undone_of_installd_failed hfirst p⟩
      rw [socketNames, createSockets_fails hfirst ["zygote", "adbd"] [] p]

def lastDescriptor : String → SocketAnswers :=
  fun name => ⟨if name = "installd" then some 3 else none, false, false, false⟩

theorem installd_left_behind :
    (Process.createSockets lastDescriptor socketNames [] ⟨emptyDirectory, []⟩).returned =
      some (-1) ∧
    (Process.createSockets lastDescriptor socketNames []
      ⟨emptyDirectory, []⟩).process.directory.files "/tmp/shashlik-socket/installd" = some 0 ∧
    (Process.createSockets lastDescriptor socketNames [] ⟨emptyDirectory, []⟩).process.descriptors =
      [⟨3, some 0⟩] ∧
    ¬ AllOrNothing ⟨emptyDirectory, []⟩
      (Process.createSockets lastDescriptor socketNames [] ⟨emptyDirectory, []⟩) := by
  have hreturned : (Process.createSockets lastDescriptor socketNames []
      ⟨emptyDirectory, []⟩).returned = some (-1) := by decide +kernel
  have hdescriptors : (Process.createSockets lastDescriptor socketNames []
      ⟨emptyDirectory, []⟩).process.descriptors = [⟨3, some 0⟩] := by decide +kernel
  refine ⟨hreturned, by decide +kernel, hdescriptors, ?_⟩
  rintro (⟨hnone, -⟩ | ⟨status, -, -, -, hclosed⟩)
  · rw [hreturned] at hnone
    exact absurd hnone (by simp)
  · rw [hdescriptors] at hclosed
    exact absurd hclosed (by simp)

end Shashlik.SocketDescriptors
