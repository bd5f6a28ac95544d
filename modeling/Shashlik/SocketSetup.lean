import Mathlib.Logic.Function.Basic
import Mathlib.Order.Nat
import Mathlib.Tactic.Common

set_option autoImplicit false

/-!
# The sockets of the daemons

Before it does anything else the Controller's program binds one socket for each of three
daemons, unless a file in the socket directory says that this was done before. The file that
is looked for and the files that are bound have their names from different places.
-/
namespace Shashlik.SocketSetup

def ANDROID_SOCKET_DIR : String := "/tmp/shashlik-socket"

inductive Errno where
  | ENOENT
  | EADDRINUSE
  | EACCES
  deriving DecidableEq

/-- The files by their paths; a file is the socket that was bound to it. No socket is bound
    twice. -/
structure SocketDirectory where
  files : String → Option ℕ
  nextSocket : ℕ
  fresh : ∀ path socket, files path = some socket → socket < nextSocket

namespace SocketDirectory

def hasFile (d : SocketDirectory) (path : String) : Bool := (d.files path).isSome

def remove (d : SocketDirectory) (path : String) : SocketDirectory where
  files := Function.update d.files path none
  nextSocket := d.nextSocket
  fresh path' socket h := by
    by_cases he : path' = path
    · simp [he] at h
    · rw [Function.update_of_ne he] at h
      exact d.fresh path' socket h

def add (d : SocketDirectory) (path : String) : SocketDirectory where
  files := Function.update d.files path (some d.nextSocket)
  nextSocket := d.nextSocket + 1
  fresh path' socket h := by
    by_cases he : path' = path
    · simp only [he, Function.update_self, Option.some.injEq] at h
      exact h ▸ Nat.lt_succ_self _
    · rw [Function.update_of_ne he] at h
      exact (d.fresh path' socket h).trans (Nat.lt_succ_self _)

def unlink (d : SocketDirectory) (path : String) (denied : Bool) :
    Option Errno × SocketDirectory :=
  if denied then (some .EACCES, d)
  else if d.hasFile path then (none, d.remove path)
  else (some .ENOENT, d)

def bind (d : SocketDirectory) (path : String) (denied : Bool) :
    Option Errno × SocketDirectory :=
  if denied then (some .EACCES, d)
  else if d.hasFile path then (some .EADDRINUSE, d)
  else (none, d.add path)

end SocketDirectory

open SocketDirectory

structure SocketAnswers where
  /-- The descriptor of `socket()`, if it succeeds. -/
  fd : Option ℕ
  unlinkDenied : Bool
  bindDenied : Bool
  cleanupDenied : Bool

/-- `snprintf` into `sun_path`, which has 108 bytes. -/
def sunPath (name : String) : String :=
  String.ofList ((ANDROID_SOCKET_DIR ++ "/" ++ name).toList.take 107)

def createSocket (name : String) (answers : SocketAnswers) (d : SocketDirectory) :
    ℤ × SocketDirectory :=
  match answers.fd with
  | none => (-1, d)
  | some fd =>
    let unlinked := d.unlink (sunPath name) answers.unlinkDenied
    if unlinked.1 ≠ none ∧ unlinked.1 ≠ some .ENOENT then (-1, unlinked.2)
    else
      let bound := unlinked.2.bind (sunPath name) answers.bindDenied
      if bound.1 ≠ none then (-1, (bound.2.unlink (sunPath name) answers.cleanupDenied).2)
      else (fd, bound.2)

/-- How `main` comes out of the socket setup: with the exit status of an early return, the
    environment for the daemons, and the directory it leaves. -/
structure Setup where
  returned : Option ℤ
  environment : List (String × ℤ)
  directory : SocketDirectory

def socketNames : List String := ["installd", "zygote", "adbd"]

def createSockets (answers : String → SocketAnswers) :
    List String → List (String × ℤ) → SocketDirectory → Setup
  | [], environment, d => ⟨none, environment, d⟩
  | name :: names, environment, d =>
    let created := createSocket name (answers name) d
    if created.1 < 0 then ⟨some created.1, environment, created.2⟩
    else createSockets answers names
      (environment ++ [("ANDROID_SOCKET_" ++ name, created.1)]) created.2

/-- The file whose presence stands for an earlier setup. -/
def checkedPath : String := ANDROID_SOCKET_DIR ++ "/ANDROID_SOCKET_installd"

def socketSetup (stop : Bool) (answers : String → SocketAnswers) (d : SocketDirectory) : Setup :=
  if d.hasFile checkedPath ∨ stop then ⟨none, [], d⟩
  else createSockets answers socketNames [] d

/-! ### What one socket leaves -/

theorem unlink_files_other (d : SocketDirectory) (path path' : String) (denied : Bool)
    (h : path' ≠ path) : (d.unlink path denied).2.files path' = d.files path' := by
  unfold unlink
  split
  · rfl
  · split
    · exact Function.update_of_ne h _ _
    · rfl

theorem add_files_self (d : SocketDirectory) (path : String) :
    (d.add path).files path = some d.nextSocket := Function.update_self path _ _

theorem bind_files_other (d : SocketDirectory) (path path' : String) (denied : Bool)
    (h : path' ≠ path) : (d.bind path denied).2.files path' = d.files path' := by
  unfold SocketDirectory.bind
  split
  · rfl
  · split
    · rfl
    · exact Function.update_of_ne h _ _

theorem createSocket_other (name : String) (answers : SocketAnswers) (d : SocketDirectory)
    (path : String) (h : path ≠ sunPath name) :
    (createSocket name answers d).2.files path = d.files path := by
  unfold createSocket
  cases answers.fd with
  | none => rfl
  | some fd =>
    simp only
    split
    · exact unlink_files_other _ _ _ _ h
    · split
      · rw [unlink_files_other _ _ _ _ h, bind_files_other _ _ _ _ h,
          unlink_files_other _ _ _ _ h]
      · rw [bind_files_other _ _ _ _ h, unlink_files_other _ _ _ _ h]

theorem unlink_nextSocket (d : SocketDirectory) (path : String) (denied : Bool) :
    (d.unlink path denied).2.nextSocket = d.nextSocket := by
  unfold unlink
  split
  · rfl
  · split <;> rfl

theorem unlink_allowed (d : SocketDirectory) (path : String) :
    (d.unlink path false).2.files path = none ∧
      ((d.unlink path false).1 = none ∨ (d.unlink path false).1 = some .ENOENT) := by
  unfold unlink
  rw [if_neg (by simp)]
  split
  · exact ⟨Function.update_self _ _ _, Or.inl rfl⟩
  · rename_i hfile
    rw [hasFile, Bool.not_eq_true, Option.isSome_eq_false_iff, Option.isNone_iff_eq_none] at hfile
    exact ⟨hfile, Or.inr rfl⟩

theorem unlink_of_free (d : SocketDirectory) (path : String) (denied : Bool)
    (h : d.files path = none) : (d.unlink path denied).2 = d := by
  unfold unlink
  split
  · rfl
  · rw [if_neg (by simp [hasFile, h])]

theorem createSocket_replaces (name : String) (answers : SocketAnswers) (d : SocketDirectory)
    (hfd : answers.fd ≠ none) (hunlink : answers.unlinkDenied = false) :
    (createSocket name answers d).2.files (sunPath name) =
      if 0 ≤ (createSocket name answers d).1 then some d.nextSocket else none := by
  obtain ⟨fd, hfd⟩ := Option.ne_none_iff_exists'.mp hfd
  obtain ⟨hfree, hreturned⟩ := unlink_allowed d (sunPath name)
  have hnext := unlink_nextSocket d (sunPath name) false
  unfold createSocket
  simp only [hfd, hunlink]
  rw [if_neg (by rcases hreturned with h | h <;> simp [h])]
  generalize (d.unlink (sunPath name) false).2 = d' at hfree hnext ⊢
  cases hdenied : answers.bindDenied with
  | true =>
    simp only [SocketDirectory.bind, if_true]
    rw [if_pos (by simp), unlink_of_free d' _ _ hfree,
      if_neg (show ¬ (0 : ℤ) ≤ -1 by decide)]
    exact hfree
  | false =>
    have hbind : d'.bind (sunPath name) false = (none, d'.add (sunPath name)) := by
      rw [SocketDirectory.bind, if_neg (by simp), if_neg (by simp [hasFile, hfree])]
    rw [hbind, if_neg (by simp), if_pos (Int.natCast_nonneg fd), ← hnext]
    exact add_files_self d' (sunPath name)

theorem createSocket_created (name : String) (answers : SocketAnswers) (d : SocketDirectory)
    (h : 0 ≤ (createSocket name answers d).1) :
    (createSocket name answers d).2.files (sunPath name) = some d.nextSocket := by
  have hfd : answers.fd ≠ none := by
    intro hnone
    rw [createSocket, hnone] at h
    exact absurd (show (0 : ℤ) ≤ -1 from h) (by decide)
  have hunlink : answers.unlinkDenied = false := by
    rw [← Bool.not_eq_true]
    intro hdenied
    obtain ⟨fd, hsome⟩ := Option.ne_none_iff_exists'.mp hfd
    rw [createSocket, hsome, hdenied] at h
    simp only [unlink, if_true] at h
    rw [if_pos (by simp)] at h
    exact absurd (show (0 : ℤ) ≤ -1 from h) (by decide)
  rw [createSocket_replaces name answers d hfd hunlink, if_pos h]

/-! ### The three sockets -/

theorem createSockets_other (answers : String → SocketAnswers) (names : List String)
    (environment : List (String × ℤ)) (d : SocketDirectory) (path : String)
    (h : ∀ name ∈ names, path ≠ sunPath name) :
    (createSockets answers names environment d).directory.files path = d.files path := by
  induction names generalizing environment d with
  | nil => rfl
  | cons name names ih =>
    rw [List.forall_mem_cons] at h
    have hfirst := createSocket_other name (answers name) d path h.1
    rw [createSockets]
    split
    · exact hfirst
    · rw [ih _ _ h.2]
      exact hfirst

theorem sunPath_ne_checkedPath : ∀ name ∈ socketNames, checkedPath ≠ sunPath name := by
  decide +kernel

theorem sunPath_installd_ne : ∀ name ∈ ["zygote", "adbd"], sunPath "installd" ≠ sunPath name := by
  decide +kernel

theorem createSockets_installd (answers : String → SocketAnswers) (d : SocketDirectory) :
    (createSockets answers socketNames [] d).directory.files (sunPath "installd") =
      (createSocket "installd" (answers "installd") d).2.files (sunPath "installd") := by
  rw [socketNames, createSockets]
  split
  · rfl
  · exact createSockets_other answers ["zygote", "adbd"] _ _ (sunPath "installd")
      sunPath_installd_ne

theorem createSockets_failed (answers : String → SocketAnswers) (d : SocketDirectory)
    (h : (createSocket "installd" (answers "installd") d).1 < 0) :
    (createSockets answers socketNames [] d).directory =
      (createSocket "installd" (answers "installd") d).2 := by
  rw [socketNames, createSockets, if_pos h]

theorem installd_of_completed (answers : String → SocketAnswers) (d : SocketDirectory)
    (h : (createSockets answers socketNames [] d).returned = none) :
    (createSockets answers socketNames [] d).directory.files (sunPath "installd") =
      some d.nextSocket := by
  rw [createSockets_installd]
  apply createSocket_created
  by_contra hneg
  rw [socketNames, createSockets, if_pos (by omega)] at h
  exact absurd h (by simp)

/-- The sockets that were bound on the way from one directory to another. -/
def BoundBetween (d d' : SocketDirectory) (path : String) (socket : ℕ) : Prop :=
  d'.files path = some socket ∧ d.nextSocket ≤ socket

/-- Every socket that the earlier setup bound is still bound to its path after the later one. -/
def SocketsStay (d d₁ d₂ : SocketDirectory) : Prop :=
  ∀ path socket, BoundBetween d d₁ path socket → d₂.files path = some socket

theorem socketSetup_skipped {stop : Bool} {answers : String → SocketAnswers} {d : SocketDirectory}
    (h : d.hasFile checkedPath ∨ stop) : (socketSetup stop answers d).directory = d := by
  rw [socketSetup, if_pos h]

theorem socketSetup_run {stop : Bool} {answers : String → SocketAnswers} {d : SocketDirectory}
    (h : ¬ (d.hasFile checkedPath ∨ stop)) :
    socketSetup stop answers d = createSockets answers socketNames [] d := if_neg h

/-- The file that is looked for is never bound. -/
theorem hasFile_checkedPath (answers : String → SocketAnswers) (d : SocketDirectory) :
    (createSockets answers socketNames [] d).directory.hasFile checkedPath =
      d.hasFile checkedPath := by
  rw [hasFile, createSockets_other answers socketNames [] d checkedPath sunPath_ne_checkedPath]
  rfl

theorem not_skipped_again {answers : String → SocketAnswers} {d : SocketDirectory} {stop : Bool}
    (h : ¬ (d.hasFile checkedPath = true ∨ stop = true)) :
    ¬ ((createSockets answers socketNames [] d).directory.hasFile checkedPath = true ∨
      false = true) := by
  rw [hasFile_checkedPath]
  exact fun hor => h (Or.inl (hor.resolve_right (by simp)))

theorem createSockets_replaces (answers : String → SocketAnswers) (d : SocketDirectory)
    {socket : ℕ} (hbound : d.files (sunPath "installd") = some socket)
    (hfd : (answers "installd").fd ≠ none) (hunlink : (answers "installd").unlinkDenied = false) :
    (createSockets answers socketNames [] d).directory.files (sunPath "installd") ≠
      some socket := by
  rw [createSockets_installd, createSocket_replaces "installd" (answers "installd") d hfd hunlink]
  have hlt := d.fresh _ _ hbound
  split
  · exact fun he => absurd (Option.some.inj he) (by omega)
  · simp

theorem createSocket_unchanged (name : String) (answers : SocketAnswers) (d : SocketDirectory)
    (h : answers.fd = none ∨ answers.unlinkDenied = true) : createSocket name answers d = (-1, d) := by
  unfold createSocket
  cases hfd : answers.fd with
  | none => rfl
  | some fd =>
    have hdenied : answers.unlinkDenied = true := h.resolve_left (by simp [hfd])
    simp only [hdenied, unlink, if_true]
    rw [if_pos (by simp)]

theorem socketSetup_rebinds {answers again : String → SocketAnswers} {d : SocketDirectory}
    {stop : Bool} (hskip : ¬ (d.hasFile checkedPath = true ∨ stop = true))
    (h : (socketSetup stop answers d).returned = none) (hfd : (again "installd").fd ≠ none)
    (hunlink : (again "installd").unlinkDenied = false) :
    ¬ SocketsStay d (socketSetup stop answers d).directory
      (socketSetup false again (socketSetup stop answers d).directory).directory := by
  rw [socketSetup_run hskip] at h ⊢
  have hfirst := installd_of_completed answers d h
  rw [socketSetup_run (not_skipped_again hskip)]
  generalize (createSockets answers socketNames [] d).directory = d₁ at hfirst ⊢
  intro hstay
  exact createSockets_replaces again d₁ hfirst hfd hunlink (hstay _ _ ⟨hfirst, Nat.le_refl _⟩)

/-- A second invocation leaves every socket of an earlier, completed setup exactly when the
    earlier one bound none, or the second one fails before its first unlink takes effect. -/
theorem sockets_stay_iff (d : SocketDirectory) (stop : Bool)
    (answers again : String → SocketAnswers)
    (h : (socketSetup stop answers d).returned = none) :
    SocketsStay d (socketSetup stop answers d).directory
        (socketSetup false again (socketSetup stop answers d).directory).directory ↔
      (d.hasFile checkedPath = true ∨ stop = true) ∨
        (again "installd").fd = none ∨ (again "installd").unlinkDenied = true := by
  by_cases hskip : d.hasFile checkedPath = true ∨ stop = true
  · refine iff_of_true (fun path socket hbound => ?_) (Or.inl hskip)
    rw [socketSetup_skipped hskip] at hbound
    have hlt := d.fresh path socket hbound.1
    have hle := hbound.2
    omega
  · constructor
    · intro hstay
      refine Or.inr ?_
      by_contra hgoes
      rw [not_or, Bool.not_eq_true] at hgoes
      exact socketSetup_rebinds hskip h hgoes.1 hgoes.2 hstay
    · rw [socketSetup_run hskip, socketSetup_run (not_skipped_again hskip)]
      generalize (createSockets answers socketNames [] d).directory = d₁
      intro hfails path socket hbound
      have hunchanged := createSocket_unchanged "installd" (again "installd") d₁
        (hfails.resolve_left hskip)
      have hfailed : (createSocket "installd" (again "installd") d₁).1 < 0 := by
        rw [hunchanged]
        exact Int.negSucc_lt_zero 0
      rw [createSockets_failed again d₁ hfailed, hunchanged]
      exact hbound.1

def emptyDirectory : SocketDirectory := ⟨fun _ => none, 0, by simp⟩

def willing : String → SocketAnswers := fun _ => ⟨some 3, false, false, false⟩

def unwilling : String → SocketAnswers := fun _ => ⟨none, false, false, false⟩

theorem sockets_stay_without_socket :
    (socketSetup false willing emptyDirectory).returned = none ∧
      (SocketsStay emptyDirectory (socketSetup false willing emptyDirectory).directory
          (socketSetup false unwilling
            (socketSetup false willing emptyDirectory).directory).directory ↔
        (emptyDirectory.hasFile checkedPath = true ∨ false = true) ∨
          (unwilling "installd").fd = none ∨ (unwilling "installd").unlinkDenied = true) := by
  have hreturned : (socketSetup false willing emptyDirectory).returned = none := by decide +kernel
  exact ⟨hreturned, sockets_stay_iff emptyDirectory false willing unwilling hreturned⟩

theorem second_setup_rebinds :
    (socketSetup false willing emptyDirectory).returned = none ∧
      ¬ SocketsStay emptyDirectory (socketSetup false willing emptyDirectory).directory
        (socketSetup false willing
          (socketSetup false willing emptyDirectory).directory).directory := by
  have hreturned : (socketSetup false willing emptyDirectory).returned = none := by decide +kernel
  have hnew : ¬ (emptyDirectory.hasFile checkedPath = true ∨ false = true) := by
    simp [hasFile, emptyDirectory]
  exact ⟨hreturned, socketSetup_rebinds hnew hreturned (by simp [willing]) rfl⟩

end Shashlik.SocketSetup
