import Mathlib.Data.List.TakeWhile
import Shashlik.ControllerActions

set_option autoImplicit false

/-!
# The arguments of the launcher

`shashlik_launcher` gives its first arguments to the VM, reads a few of its own, and leaves the
others to the class that it starts. Two loops of two functions hand over a position in `argv`,
and the Controller writes the lists that they read.
-/
namespace Shashlik.LauncherArguments
open ServiceController ControllerActions

def nul : Char := Char.ofNat 0

/-- A C string, without the NUL behind it. -/
structure Argument where
  chars : List Char
  ended : nul ∉ chars
  deriving DecidableEq

namespace Argument

def charAt (arg : Argument) (i : ℕ) : Char := arg.chars.getD i nul

def equals (arg : Argument) (text : String) : Prop := arg.chars = text.toList

instance (arg : Argument) (text : String) : Decidable (arg.equals text) :=
  inferInstanceAs (Decidable (_ = _))

def startsWith (arg : Argument) (text : String) : Prop := text.toList <+: arg.chars

instance (arg : Argument) (text : String) : Decidable (arg.startsWith text) :=
  inferInstanceAs (Decidable (_ <+: _))

def drop (arg : Argument) (n : ℕ) : Argument :=
  ⟨arg.chars.drop n, fun h => arg.ended (List.mem_of_mem_drop h)⟩

def take (arg : Argument) (n : ℕ) : Argument :=
  ⟨arg.chars.take n, fun h => arg.ended (List.mem_of_mem_take h)⟩

/-- The argument that a process gets for a string: what is behind a NUL is lost. -/
def ofString (s : String) : Argument where
  chars := s.toList.takeWhile (fun c => c ≠ nul)
  ended h := by simpa using List.mem_takeWhile_imp h

end Argument

/-! ### The launcher -/

/-- The loop of `addVmArguments` from index `i` on, where `argv` still holds these arguments:
    the number of arguments consumed, and the options added to `mOptions`. -/
def addVmArguments : List Argument → ℕ → List Argument → ℕ × List Argument
  | [], i, options => (i, options)
  | arg :: args, i, options =>
    if arg.charAt 0 ≠ '-' then (i, options)
    else if arg.charAt 1 = '-' ∧ arg.charAt 2 = nul then (i + 1, options)
    else addVmArguments args (i + 1) (options ++ [arg])

structure RuntimeArguments where
  zygote : Bool := false
  startSystemServer : Bool := false
  application : Bool := false
  parentDir : Option Argument := none
  niceName : Option Argument := none
  className : Option Argument := none

def readOption (r : RuntimeArguments) (arg : Argument) : Option RuntimeArguments :=
  if arg.equals "--zygote" then
    some { r with zygote := true, niceName := some (Argument.ofString "zygote") }
  else if arg.equals "--start-system-server" then some { r with startSystemServer := true }
  else if arg.equals "--application" then some { r with application := true }
  else if arg.startsWith "--nice-name=" then some { r with niceName := some (arg.drop 12) }
  else none

def readArguments : List Argument → ℕ → RuntimeArguments → ℕ × RuntimeArguments
  | [], i, r => (i, r)
  | arg :: args, i, r =>
    match r.parentDir with
    | none => readArguments args (i + 1) { r with parentDir := some arg }
    | some _ =>
      match readOption r arg with
      | some r' => readArguments args (i + 1) r'
      | none => (i + 1, { r with className := some arg })

/-- `strncpy` into the memory of the old name, as far as that goes. -/
def setArgv0 (argv0 newArgv0 : Argument) : Argument := newArgv0.take argv0.chars.length

inductive Start where
  | zygoteInit (options : String)
  | runtimeInit (className : Argument) (argc : ℕ) (argv : List Argument) (options : String)
  /-- Neither a class name nor `--zygote`: the usage, and status 10. -/
  | usage
  deriving DecidableEq

/-- What `main` does with its arguments. -/
structure Launch where
  vmOptions : List Argument
  argv0 : Argument
  parentDir : Option Argument
  start : Start
  deriving DecidableEq

def renamed (argv0 : Argument) (niceName : Option Argument) : Argument :=
  match niceName with
  | none => argv0
  | some niceName => if niceName.charAt 0 = nul then argv0 else setArgv0 argv0 niceName

def RuntimeArguments.start (r : RuntimeArguments) (argc : ℕ) (argv : List Argument) : Start :=
  if r.zygote then
    .zygoteInit (if r.startSystemServer then "start-system-server" else "")
  else
    match r.className with
    | some className =>
      .runtimeInit className argc argv (if r.application then "application" else "tool")
    | none => .usage

def main (argv0 : Argument) (argv : List Argument) : Launch :=
  let added := addVmArguments argv 0 []
  let read := readArguments (argv.drop added.1) added.1 {}
  { vmOptions := added.2
    argv0 := renamed argv0 read.2.niceName
    parentDir := read.2.parentDir
    start := read.2.start (argv.length - read.1) (argv.drop read.1) }

def callMain {J : Type} (newStringUTF : Argument → J) (argc : ℕ) (argv : List Argument) : List J :=
  (argv.take argc).map newStringUTF

/-- The class whose main `onStarted` calls, and what it receives. -/
def Launch.onStarted {J : Type} (newStringUTF : Argument → J) (l : Launch) :
    Option (Argument × List J) :=
  match l.start with
  | .runtimeInit className argc argv _ => some (className, callMain newStringUTF argc argv)
  | _ => none

/-! ### The parts of a list of arguments -/

def separator : Argument := Argument.ofString "--"

def IsVmOption (arg : Argument) : Prop := arg.charAt 0 = '-' ∧ arg ≠ separator

instance : DecidablePred IsVmOption := fun _ => inferInstanceAs (Decidable (_ ∧ _))

def Recognised (arg : Argument) : Prop :=
  arg.equals "--zygote" ∨ arg.equals "--start-system-server" ∨ arg.equals "--application" ∨
    arg.startsWith "--nice-name="

instance : DecidablePred Recognised := fun _ => inferInstanceAs (Decidable (_ ∨ _))

/-- A list of arguments cut where the launcher should cut it. -/
structure Parts where
  vmOptions : List Argument
  separated : Bool
  parentDir : Option Argument
  runtimeOptions : List Argument
  className : Option Argument
  remaining : List Argument
  isVmOption : ∀ arg ∈ vmOptions, IsVmOption arg
  /-- Without a separator the VM options end with an argument that does not begin with a dash. -/
  longest : separated = false → ∀ arg ∈ parentDir, arg.charAt 0 ≠ '-'
  recognised : ∀ arg ∈ runtimeOptions, Recognised arg
  unrecognised : ∀ arg ∈ className, ¬ Recognised arg
  behindParentDir : parentDir = none → runtimeOptions = [] ∧ className = none
  behindClassName : className = none → remaining = []

namespace Parts

def separators (p : Parts) : List Argument := if p.separated then [separator] else []

def body (p : Parts) : List Argument :=
  p.parentDir.toList ++ (p.runtimeOptions ++ (p.className.toList ++ p.remaining))

def flatten (p : Parts) : List Argument := p.vmOptions ++ (p.separators ++ p.body)

/-- What the launcher should do. -/
def start (p : Parts) : Start :=
  if ∃ arg ∈ p.runtimeOptions, arg.equals "--zygote" then
    .zygoteInit (if ∃ arg ∈ p.runtimeOptions, arg.equals "--start-system-server" then
      "start-system-server" else "")
  else
    match p.className with
    | some className => .runtimeInit className p.remaining.length p.remaining
        (if ∃ arg ∈ p.runtimeOptions, arg.equals "--application" then "application" else "tool")
    | none => .usage

end Parts

theorem exists_run {α : Type} (P : α → Prop) [DecidablePred P] (l : List α) :
    ∃ front rest, l = front ++ rest ∧ (∀ a ∈ front, P a) ∧ ∀ a ∈ rest.head?, ¬ P a := by
  refine ⟨l.takeWhile P, l.dropWhile P, List.takeWhile_append_dropWhile.symm, ?_, ?_⟩
  · intro a ha
    simpa using List.mem_takeWhile_imp ha
  · intro a ha
    have hhead := List.head?_dropWhile_not (fun a => decide (P a)) l
    rw [Option.mem_def.mp ha] at hhead
    simpa using hhead

theorem exists_body (vmOptions : List Argument) (separated : Bool) (rest : List Argument)
    (hvm : ∀ arg ∈ vmOptions, IsVmOption arg)
    (hlongest : separated = false → ∀ arg ∈ rest.head?, arg.charAt 0 ≠ '-') :
    ∃ p : Parts, p.vmOptions = vmOptions ∧ p.separated = separated ∧ p.body = rest := by
  cases rest with
  | nil => exact ⟨⟨vmOptions, separated, none, [], none, [], hvm, by simp, by simp, by simp,
      by simp, by simp⟩, rfl, rfl, rfl⟩
  | cons parentDir rest =>
    have hfirst : separated = false → ∀ arg ∈ some parentDir, arg.charAt 0 ≠ '-' := by
      simpa using hlongest
    obtain ⟨options, rest, rfl, hoptions, hstop⟩ := exists_run Recognised rest
    cases rest with
    | nil => exact ⟨⟨vmOptions, separated, some parentDir, options, none, [], hvm, hfirst, hoptions,
        by simp, by simp, by simp⟩, rfl, rfl, rfl⟩
    | cons className remaining =>
      exact ⟨⟨vmOptions, separated, some parentDir, options, some className, remaining, hvm,
        hfirst, hoptions, by simpa using hstop, by simp, by simp⟩, rfl, rfl, rfl⟩

theorem exists_parts (argv : List Argument) : ∃ p : Parts, p.flatten = argv := by
  obtain ⟨vmOptions, rest, rfl, hvm, hstop⟩ := exists_run IsVmOption argv
  by_cases hseparated : rest.head? = some separator
  · obtain ⟨rest, rfl⟩ : ∃ t, rest = separator :: t := by
      cases rest with
      | nil => simp at hseparated
      | cons arg t => exact ⟨t, by rw [Option.some.inj hseparated]⟩
    obtain ⟨p, hoptions, htrue, hbody⟩ := exists_body vmOptions true rest hvm (by simp)
    exact ⟨p, by simp [Parts.flatten, Parts.separators, hoptions, htrue, hbody]⟩
  · obtain ⟨p, hoptions, hfalse, hbody⟩ := exists_body vmOptions false rest hvm (by
      intro _ arg harg hdash
      refine hstop arg harg ⟨hdash, ?_⟩
      rintro rfl
      exact hseparated harg)
    exact ⟨p, by simp [Parts.flatten, Parts.separators, hoptions, hfalse, hbody]⟩

/-! ### The first loop -/

theorem separator_iff (arg : Argument) :
    arg.charAt 0 = '-' ∧ arg.charAt 1 = '-' ∧ arg.charAt 2 = nul ↔ arg = separator := by
  obtain ⟨chars, ended⟩ := arg
  constructor
  · rintro ⟨hfirst, hsecond, hthird⟩
    match chars, ended, hfirst, hsecond, hthird with
    | [], _, hfirst, _, _ => exact absurd (show nul = '-' from hfirst) (by decide)
    | [_], _, _, hsecond, _ => exact absurd (show nul = '-' from hsecond) (by decide)
    | [a, b], _, hfirst, hsecond, _ =>
      obtain rfl : a = '-' := hfirst
      obtain rfl : b = '-' := hsecond
      rfl
    | a :: b :: c :: cs, ended, _, _, hthird =>
      have hnul : c = nul := hthird
      exact absurd (by simp [hnul]) ended
  · intro h
    rw [h]
    decide

theorem addVmArguments_options (vmOptions rest : List Argument) (i : ℕ)
    (options : List Argument) (h : ∀ arg ∈ vmOptions, IsVmOption arg) :
    addVmArguments (vmOptions ++ rest) i options =
      addVmArguments rest (i + vmOptions.length) (options ++ vmOptions) := by
  induction vmOptions generalizing i options with
  | nil => simp
  | cons arg args ih =>
    rw [List.forall_mem_cons] at h
    obtain ⟨⟨hdash, hne⟩, hargs⟩ := h
    rw [List.cons_append, addVmArguments, if_neg (not_not.mpr hdash),
      if_neg fun hseparator => hne ((separator_iff arg).mp ⟨hdash, hseparator⟩), ih _ _ hargs,
      List.length_cons, List.append_assoc, List.singleton_append]
    congr 1
    omega

theorem addVmArguments_flatten (p : Parts) : addVmArguments p.flatten 0 [] =
    (p.vmOptions.length + p.separators.length, p.vmOptions) := by
  rw [Parts.flatten, addVmArguments_options _ _ _ _ p.isVmOption, Nat.zero_add, List.nil_append]
  cases hseparated : p.separated with
  | true =>
    obtain ⟨hdash, hseparator⟩ := (separator_iff separator).mpr rfl
    rw [Parts.separators, hseparated, if_pos rfl, List.singleton_append, addVmArguments,
      if_neg (not_not.mpr hdash), if_pos hseparator]
    rfl
  | false =>
    rw [Parts.separators, hseparated, if_neg Bool.false_ne_true, List.nil_append]
    cases hparent : p.parentDir with
    | none =>
      obtain ⟨hoptions, hclass⟩ := p.behindParentDir hparent
      rw [Parts.body, hparent, hoptions, hclass, p.behindClassName hclass]
      rfl
    | some parentDir =>
      have hdash := p.longest hseparated parentDir (by simp [hparent])
      rw [Parts.body, hparent, Option.toList_some, List.singleton_append, addVmArguments,
        if_pos hdash]
      rfl

/-! ### The second loop -/

theorem equals_ne {arg : Argument} {text text' : String} (h : arg.equals text)
    (hne : text.toList ≠ text'.toList) : ¬ arg.equals text' := fun h' => hne (h.symm.trans h')

theorem readOption_cases (r : RuntimeArguments) (arg : Argument) :
    (arg.equals "--zygote" ∧ ¬ arg.equals "--start-system-server" ∧
        ¬ arg.equals "--application" ∧ readOption r arg =
          some { r with zygote := true, niceName := some (Argument.ofString "zygote") }) ∨
      (¬ arg.equals "--zygote" ∧ arg.equals "--start-system-server" ∧
        ¬ arg.equals "--application" ∧ readOption r arg =
          some { r with startSystemServer := true }) ∨
      (¬ arg.equals "--zygote" ∧ ¬ arg.equals "--start-system-server" ∧
        arg.equals "--application" ∧ readOption r arg = some { r with application := true }) ∨
      (¬ arg.equals "--zygote" ∧ ¬ arg.equals "--start-system-server" ∧
        ¬ arg.equals "--application" ∧ arg.startsWith "--nice-name=" ∧ readOption r arg =
          some { r with niceName := some (arg.drop 12) }) ∨
      (¬ arg.equals "--zygote" ∧ ¬ arg.equals "--start-system-server" ∧
        ¬ arg.equals "--application" ∧ ¬ arg.startsWith "--nice-name=" ∧
          readOption r arg = none) := by
  unfold readOption
  by_cases hzygote : arg.equals "--zygote"
  · exact .inl ⟨hzygote, equals_ne hzygote (by decide), equals_ne hzygote (by decide),
      if_pos hzygote⟩
  rw [if_neg hzygote]
  by_cases hserver : arg.equals "--start-system-server"
  · exact .inr (.inl ⟨hzygote, hserver, equals_ne hserver (by decide), if_pos hserver⟩)
  rw [if_neg hserver]
  by_cases happlication : arg.equals "--application"
  · exact .inr (.inr (.inl ⟨hzygote, hserver, happlication, if_pos happlication⟩))
  rw [if_neg happlication]
  by_cases hname : arg.startsWith "--nice-name="
  · exact .inr (.inr (.inr (.inl ⟨hzygote, hserver, happlication, hname, if_pos hname⟩)))
  · exact .inr (.inr (.inr (.inr ⟨hzygote, hserver, happlication, hname, if_neg hname⟩)))

theorem readOption_eq_none_iff (r : RuntimeArguments) (arg : Argument) :
    readOption r arg = none ↔ ¬ Recognised arg := by
  unfold Recognised
  rcases readOption_cases r arg with
    ⟨hz, -, -, h⟩ | ⟨-, hs, -, h⟩ | ⟨-, -, ha, h⟩ | ⟨-, -, -, hn, h⟩ | ⟨hz, hs, ha, hn, h⟩
  · simp [h, hz]
  · simp [h, hs]
  · simp [h, ha]
  · simp [h, hn]
  · simp [h, hz, hs, ha, hn]

def readOptions (r : RuntimeArguments) (options : List Argument) : RuntimeArguments :=
  options.foldl (fun r arg => (readOption r arg).getD r) r

theorem readOption_parentDir {r r' : RuntimeArguments} {arg : Argument}
    (h : readOption r arg = some r') : r'.parentDir = r.parentDir ∧ r'.className = r.className := by
  rcases readOption_cases r arg with
    ⟨-, -, -, h'⟩ | ⟨-, -, -, h'⟩ | ⟨-, -, -, h'⟩ | ⟨-, -, -, -, h'⟩ | ⟨-, -, -, -, h'⟩
  · rw [← Option.some.inj (h'.symm.trans h)]
    exact ⟨rfl, rfl⟩
  · rw [← Option.some.inj (h'.symm.trans h)]
    exact ⟨rfl, rfl⟩
  · rw [← Option.some.inj (h'.symm.trans h)]
    exact ⟨rfl, rfl⟩
  · rw [← Option.some.inj (h'.symm.trans h)]
    exact ⟨rfl, rfl⟩
  · exact absurd (h'.symm.trans h) (by simp)

theorem readArguments_options (options rest : List Argument) (i : ℕ) (r : RuntimeArguments)
    (hparent : r.parentDir ≠ none) (h : ∀ arg ∈ options, Recognised arg) :
    readArguments (options ++ rest) i r =
      readArguments rest (i + options.length) (readOptions r options) := by
  induction options generalizing i r with
  | nil => rfl
  | cons arg args ih =>
    rw [List.forall_mem_cons] at h
    obtain ⟨parentDir, hparentDir⟩ := Option.ne_none_iff_exists'.mp hparent
    obtain ⟨r', hread⟩ : ∃ r', readOption r arg = some r' := by
      refine Option.ne_none_iff_exists'.mp fun hnone => ?_
      exact (readOption_eq_none_iff r arg).mp hnone h.1
    have hparent' : r'.parentDir ≠ none := by rwa [(readOption_parentDir hread).1]
    have hoptions : readOptions r (arg :: args) = readOptions r' args := by
      rw [readOptions, List.foldl_cons, hread]
      rfl
    rw [List.cons_append, readArguments, hparentDir, hread, hoptions]
    simp only
    rw [ih (i + 1) r' hparent' h.2, List.length_cons]
    congr 1
    omega

theorem readOptions_flag (flag : RuntimeArguments → Bool) (text : String)
    (hstep : ∀ r arg, flag ((readOption r arg).getD r) = (flag r || decide (arg.equals text)))
    (r : RuntimeArguments) (options : List Argument) :
    flag (readOptions r options) =
      (flag r || decide (∃ arg ∈ options, arg.equals text)) := by
  induction options generalizing r with
  | nil => simp [readOptions]
  | cons arg args ih =>
    have htail : readOptions r (arg :: args) = readOptions ((readOption r arg).getD r) args := rfl
    rw [htail, ih, hstep, Bool.or_assoc, ← Bool.decide_or]
    simp only [List.exists_mem_cons_iff]

theorem zygote_readOption (r : RuntimeArguments) (arg : Argument) :
    ((readOption r arg).getD r).zygote =
      (r.zygote || decide (arg.equals "--zygote")) := by
  rcases readOption_cases r arg with
    ⟨hflag, -, -, h⟩ | ⟨hflag, -, -, h⟩ | ⟨hflag, -, -, h⟩ | ⟨hflag, -, -, -, h⟩ |
    ⟨hflag, -, -, -, h⟩
  · simp [h, hflag]
  · simp [h, hflag]
  · simp [h, hflag]
  · simp [h, hflag]
  · simp [h, hflag]

theorem startSystemServer_readOption (r : RuntimeArguments) (arg : Argument) :
    ((readOption r arg).getD r).startSystemServer =
      (r.startSystemServer || decide (arg.equals "--start-system-server")) := by
  rcases readOption_cases r arg with
    ⟨-, hflag, -, h⟩ | ⟨-, hflag, -, h⟩ | ⟨-, hflag, -, h⟩ | ⟨-, hflag, -, -, h⟩ |
    ⟨-, hflag, -, -, h⟩
  · simp [h, hflag]
  · simp [h, hflag]
  · simp [h, hflag]
  · simp [h, hflag]
  · simp [h, hflag]

theorem application_readOption (r : RuntimeArguments) (arg : Argument) :
    ((readOption r arg).getD r).application =
      (r.application || decide (arg.equals "--application")) := by
  rcases readOption_cases r arg with
    ⟨-, -, hflag, h⟩ | ⟨-, -, hflag, h⟩ | ⟨-, -, hflag, h⟩ | ⟨-, -, hflag, -, h⟩ |
    ⟨-, -, hflag, -, h⟩
  · simp [h, hflag]
  · simp [h, hflag]
  · simp [h, hflag]
  · simp [h, hflag]
  · simp [h, hflag]

theorem readOptions_names (r : RuntimeArguments) (options : List Argument) :
    (readOptions r options).parentDir = r.parentDir ∧
      (readOptions r options).className = r.className := by
  induction options generalizing r with
  | nil => exact ⟨rfl, rfl⟩
  | cons arg args ih =>
    have htail : readOptions r (arg :: args) = readOptions ((readOption r arg).getD r) args := rfl
    rw [htail, (ih _).1, (ih _).2]
    cases hread : readOption r arg with
    | none => exact ⟨rfl, rfl⟩
    | some r' => exact readOption_parentDir hread

theorem setClassName_same {r : RuntimeArguments} {className : Option Argument}
    (h : r.className = className) : { r with className := className } = r := by
  subst h
  rfl

theorem readArguments_body (p : Parts) (i : ℕ) : readArguments p.body i {} =
    (i + (p.body.length - p.remaining.length),
      { readOptions { parentDir := p.parentDir } p.runtimeOptions with
        className := p.className }) := by
  rw [Parts.body]
  cases hparent : p.parentDir with
  | none =>
    obtain ⟨hoptions, hclass⟩ := p.behindParentDir hparent
    rw [hoptions, hclass, p.behindClassName hclass]
    rfl
  | some parentDir =>
    obtain ⟨hparentDir, hclassName⟩ :=
      readOptions_names { parentDir := some parentDir } p.runtimeOptions
    rw [Option.toList_some, List.singleton_append, readArguments]
    simp only
    rw [readArguments_options p.runtimeOptions _ _ _ (by simp) p.recognised]
    cases hclass : p.className with
    | none =>
      rw [p.behindClassName hclass]
      simp only [Option.toList_none, List.nil_append, readArguments, List.length_cons,
        List.length_append, List.length_nil]
      rw [setClassName_same hclassName]
      congr 1
      omega
    | some className =>
      have hread := (readOption_eq_none_iff
        (readOptions { parentDir := some parentDir } p.runtimeOptions) className).mpr
          (p.unrecognised className (by simp [hclass]))
      rw [Option.toList_some, List.singleton_append, readArguments, hparentDir, hread]
      simp only [List.length_cons, List.length_append]
      congr 1
      omega

/-! ### The launch -/

theorem drop_body (p : Parts) :
    p.flatten.drop (p.vmOptions.length + p.separators.length) = p.body := by
  rw [Parts.flatten, ← List.append_assoc, List.drop_left' List.length_append]

theorem body_split (p : Parts) : ∃ front, p.body = front ++ p.remaining :=
  ⟨p.parentDir.toList ++ (p.runtimeOptions ++ p.className.toList), by simp [Parts.body]⟩

theorem drop_remaining (p : Parts) :
    p.flatten.drop (p.vmOptions.length + p.separators.length +
      (p.body.length - p.remaining.length)) = p.remaining ∧
    p.flatten.length - (p.vmOptions.length + p.separators.length +
      (p.body.length - p.remaining.length)) = p.remaining.length := by
  obtain ⟨front, hbody⟩ := body_split p
  have hlength : p.body.length - p.remaining.length = front.length := by
    rw [hbody, List.length_append]
    omega
  constructor
  · rw [← List.drop_drop, drop_body, hlength, hbody, List.drop_left]
  · rw [hlength, Parts.flatten, hbody]
    simp only [List.length_append]
    omega

theorem main_flatten (argv0 : Argument) (p : Parts) :
    (main argv0 p.flatten).vmOptions = p.vmOptions ∧
      (main argv0 p.flatten).parentDir = p.parentDir ∧
        (main argv0 p.flatten).start = p.start := by
  obtain ⟨hremaining, hargc⟩ := drop_remaining p
  have hzygote := readOptions_flag RuntimeArguments.zygote "--zygote" zygote_readOption
    { parentDir := p.parentDir } p.runtimeOptions
  have hserver := readOptions_flag RuntimeArguments.startSystemServer "--start-system-server"
    startSystemServer_readOption { parentDir := p.parentDir } p.runtimeOptions
  have happlication := readOptions_flag RuntimeArguments.application "--application"
    application_readOption { parentDir := p.parentDir } p.runtimeOptions
  have hread : main argv0 p.flatten = ⟨p.vmOptions,
      renamed argv0 (readOptions { parentDir := p.parentDir } p.runtimeOptions).niceName,
      (readOptions { parentDir := p.parentDir } p.runtimeOptions).parentDir,
      RuntimeArguments.start { readOptions { parentDir := p.parentDir } p.runtimeOptions with
        className := p.className } p.remaining.length p.remaining⟩ := by
    unfold main
    simp only [addVmArguments_flatten, drop_body, readArguments_body, hremaining, hargc]
  rw [hread]
  refine ⟨rfl, (readOptions_names _ _).1, ?_⟩
  simp only [RuntimeArguments.start, hzygote, hserver, happlication, Bool.false_or,
    decide_eq_true_eq]
  rfl

def Parts.mainReceives {J : Type} (newStringUTF : Argument → J) (p : Parts) :
    Option (Argument × List J) :=
  if ∃ arg ∈ p.runtimeOptions, arg.equals "--zygote" then none
  else p.className.map (fun className => (className, p.remaining.map newStringUTF))

theorem onStarted_flatten {J : Type} (newStringUTF : Argument → J) (argv0 : Argument)
    (p : Parts) : (main argv0 p.flatten).onStarted newStringUTF = p.mainReceives newStringUTF := by
  rw [Launch.onStarted, (main_flatten argv0 p).2.2, Parts.start, Parts.mainReceives]
  by_cases hzygote : ∃ arg ∈ p.runtimeOptions, arg.equals "--zygote"
  · rw [if_pos hzygote, if_pos hzygote]
  · rw [if_neg hzygote, if_neg hzygote]
    cases p.className with
    | none => rfl
    | some className => simp [callMain]

/-! ### The lists of the Controller -/

def AbsoluteOrEmpty (androidRootDir : String) : Prop :=
  androidRootDir = "" ∨ androidRootDir.toList.head? = some '/'

theorem charAt_programDir {androidRootDir : String} (h : AbsoluteOrEmpty androidRootDir) :
    (Argument.ofString (androidRootDir ++ "/system/bin/")).charAt 0 ≠ '-' := by
  have hhead : (androidRootDir ++ "/system/bin/").toList.head? = some '/' := by
    rw [String.toList_append, List.head?_append]
    rcases h with rfl | hslash
    · rfl
    · rw [hslash]
      rfl
  change ((androidRootDir ++ "/system/bin/").toList.takeWhile (fun c => c ≠ nul)).getD 0 nul ≠ '-'
  cases hchars : (androidRootDir ++ "/system/bin/").toList with
  | nil =>
    rw [hchars] at hhead
    exact absurd hhead (by simp)
  | cons c cs =>
    rw [hchars] at hhead
    obtain rfl : c = '/' := Option.some.inj hhead
    rw [List.takeWhile_cons_of_pos (by decide), List.getD_cons_zero]
    decide

theorem chars_ofString {s : String} (h : nul ∉ s.toList) :
    (Argument.ofString s).chars = s.toList := by
  refine List.takeWhile_eq_self_iff.mpr fun c hc => ?_
  have hne : c ≠ nul := fun he => h (he ▸ hc)
  simpa using hne

def zygoteParts {androidRootDir : String} (h : AbsoluteOrEmpty androidRootDir) : Parts where
  vmOptions := [Argument.ofString "-Xzygote"]
  separated := false
  parentDir := some (Argument.ofString (androidRootDir ++ "/system/bin/"))
  runtimeOptions := [Argument.ofString "--zygote", Argument.ofString "--start-system-server"]
  className := none
  remaining := []
  isVmOption := by decide
  longest _ arg harg := Option.some.inj harg ▸ charAt_programDir h
  recognised := by decide
  unrecognised := by simp
  behindParentDir := by simp
  behindClassName _ := rfl

def apkParts {androidRootDir : String} (h : AbsoluteOrEmpty androidRootDir) (apkFile : String) :
    Parts where
  vmOptions := []
  separated := false
  parentDir := some (Argument.ofString (androidRootDir ++ "/system/bin/"))
  runtimeOptions := []
  className := some (Argument.ofString "com.android.commands.launch.Launch")
  remaining := [Argument.ofString apkFile]
  isVmOption := by simp
  longest _ arg harg := Option.some.inj harg ▸ charAt_programDir h
  recognised := by simp
  unrecognised := by decide
  behindParentDir := by simp
  behindClassName := by simp

/-- The process is the one that the step from `w` to `w'` has made. -/
def Starts (w w' : World) (q : QProcess) : Prop := w'.children = q :: w.children

def launchedArguments (q : QProcess) : List Argument := q.arguments.map Argument.ofString

theorem startProcess_arguments (w : World) (program : String) (arguments : List String)
    (objectName : String) (outcome : Option ℕ) :
    (w.startProcess program arguments objectName outcome).2.arguments = arguments := by
  cases outcome with
  | none => rfl
  | some hint => rfl

theorem starts_startProcess {w w' : World} {program : String} {arguments : List String}
    {objectName : String} {outcome : Option ℕ} {q : QProcess}
    (hchildren : w'.children = (w.startProcess program arguments objectName outcome).1.children)
    (h : Starts w w' q) : q.arguments = arguments := by
  have hstarted := startProcess_started w program arguments objectName outcome
  rw [Starts, hchildren, hstarted.children] at h
  rw [← (List.cons.inj h).1]
  exact startProcess_arguments w program arguments objectName outcome

theorem not_starts_self (w : World) (q : QProcess) : ¬ Starts w w q :=
  fun h => absurd (congrArg List.length h) (by simp)

theorem zygote_arguments {w : World} {outcome : Option ℕ} {q : QProcess}
    (h : Starts w (w.startZygote outcome) q) : q.arguments =
      ["-Xzygote", w.controller.androidRootDir ++ "/system/bin/", "--zygote",
        "--start-system-server"] := by
  by_cases hrunning : w.controller.zygoteRunning = true
  · rw [World.startZygote, if_pos hrunning] at h
    exact absurd h (not_starts_self w q)
  · rw [World.startZygote, if_neg hrunning] at h
    exact starts_startProcess rfl h

theorem apk_arguments {w : World} {apkFile : String} {fileExists : String → Bool}
    {outcome : Option ℕ} {q : QProcess} (h : Starts w (w.runApk apkFile fileExists outcome) q) :
    q.arguments = [w.controller.androidRootDir ++ "/system/bin/",
      "com.android.commands.launch.Launch", World.localFile apkFile] := by
  by_cases hexists : fileExists (World.localFile apkFile) = true
  · rw [World.runApk, if_pos hexists] at h
    exact starts_startProcess rfl h
  · rw [World.runApk, if_neg hexists] at h
    exact absurd h (not_starts_self w q)

theorem zygote_launched {androidRootDir : String} (h : AbsoluteOrEmpty androidRootDir)
    (argv0 : Argument) (q : QProcess) (hq : q.arguments =
      ["-Xzygote", androidRootDir ++ "/system/bin/", "--zygote", "--start-system-server"]) :
    (main argv0 (launchedArguments q)).vmOptions = [Argument.ofString "-Xzygote"] ∧
      (main argv0 (launchedArguments q)).start = .zygoteInit "start-system-server" := by
  have hflatten : launchedArguments q = (zygoteParts h).flatten := by
    rw [launchedArguments, hq]
    rfl
  obtain ⟨hoptions, -, hstart⟩ := main_flatten argv0 (zygoteParts h)
  rw [hflatten, hoptions, hstart]
  exact ⟨rfl, rfl⟩

theorem apk_launched {J : Type} (newStringUTF : Argument → J) {androidRootDir : String}
    (h : AbsoluteOrEmpty androidRootDir) (argv0 : Argument) (q : QProcess) (apkFile : String)
    (hq : q.arguments = [androidRootDir ++ "/system/bin/", "com.android.commands.launch.Launch",
      apkFile]) :
    (main argv0 (launchedArguments q)).vmOptions = [] ∧
      (main argv0 (launchedArguments q)).onStarted newStringUTF =
        some (Argument.ofString "com.android.commands.launch.Launch",
          [newStringUTF (Argument.ofString apkFile)]) := by
  have hflatten : launchedArguments q = (apkParts h apkFile).flatten := by
    rw [launchedArguments, hq]
    rfl
  obtain ⟨hoptions, -, -⟩ := main_flatten argv0 (apkParts h apkFile)
  rw [hflatten, hoptions, onStarted_flatten]
  exact ⟨rfl, rfl⟩

/-- The launcher splits every list of arguments into its parts and does what they say; those
    that the Controller writes start the Zygote and the launch of the application. -/
theorem arguments_partitioned {J : Type} (newStringUTF : Argument → J) (argv0 : Argument) :
    (∀ argv, ∃ p : Parts, p.flatten = argv ∧
      (main argv0 argv).vmOptions = p.vmOptions ∧ (main argv0 argv).parentDir = p.parentDir ∧
        (main argv0 argv).start = p.start ∧
          (main argv0 argv).onStarted newStringUTF = p.mainReceives newStringUTF) ∧
    ∀ w : World, AbsoluteOrEmpty w.controller.androidRootDir →
      (∀ outcome q, Starts w (w.startZygote outcome) q →
        (main argv0 (launchedArguments q)).vmOptions = [Argument.ofString "-Xzygote"] ∧
          (main argv0 (launchedArguments q)).start = .zygoteInit "start-system-server") ∧
      ∀ apkFile fileExists outcome q, Starts w (w.runApk apkFile fileExists outcome) q →
        ∃ apk : Argument,
          (nul ∉ (World.localFile apkFile).toList → apk.chars = (World.localFile apkFile).toList) ∧
          (main argv0 (launchedArguments q)).vmOptions = [] ∧
          (main argv0 (launchedArguments q)).onStarted newStringUTF =
            some (Argument.ofString "com.android.commands.launch.Launch", [newStringUTF apk]) := by
  constructor
  · intro argv
    obtain ⟨p, rfl⟩ := exists_parts argv
    obtain ⟨hoptions, hparent, hstart⟩ := main_flatten argv0 p
    exact ⟨p, rfl, hoptions, hparent, hstart, onStarted_flatten newStringUTF argv0 p⟩
  · intro w hroot
    constructor
    · intro outcome q hstarts
      exact zygote_launched hroot argv0 q (zygote_arguments hstarts)
    · intro apkFile fileExists outcome q hstarts
      exact ⟨Argument.ofString (World.localFile apkFile), chars_ofString,
        apk_launched newStringUTF hroot argv0 q _ (apk_arguments hstarts)⟩

def firstApk : QProcess where
  object := (World.construct .empty "" (fun _ => false)).nextObject
  program := "/system/bin/shashlik_launcher"
  arguments := ["/system/bin/", "com.android.commands.launch.Launch", "/game.apk"]
  objectName := "game.apk"
  processId := 0
  process := none

theorem first_apk_launched :
    Starts (World.construct .empty "" (fun _ => false))
        ((World.construct .empty "" (fun _ => false)).runApk "/game.apk" (fun _ => true) none)
        firstApk ∧
      ∃ apk : Argument, apk.chars = "/game.apk".toList ∧
        (main (Argument.ofString "shashlik_launcher") (launchedArguments firstApk)).onStarted id =
          some (Argument.ofString "com.android.commands.launch.Launch", [apk]) := by
  have hfile : World.localFile "/game.apk" = "/game.apk" := by decide +kernel
  have hstarts : Starts (World.construct .empty "" (fun _ => false))
      ((World.construct .empty "" (fun _ => false)).runApk "/game.apk" (fun _ => true) none)
      firstApk := by
    have hname : String.ofList (("/game.apk".toList.splitOn '/').getLastD []) = "game.apk" := by
      decide +kernel
    rw [World.runApk]
    simp only [hfile, hname]
    rfl
  obtain ⟨apk, hchars, -, hreceived⟩ :=
    ((arguments_partitioned id (Argument.ofString "shashlik_launcher")).2
      (World.construct .empty "" (fun _ => false)) (.inl rfl)).2 "/game.apk" (fun _ => true) none
      firstApk hstarts
  rw [hfile] at hchars
  exact ⟨hstarts, apk, hchars (by decide), hreceived⟩

end Shashlik.LauncherArguments
