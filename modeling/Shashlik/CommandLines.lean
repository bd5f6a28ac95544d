import Mathlib.Logic.Function.Iterate
import Shashlik.ProcessTrackers
import Shashlik.Library.TerminatedPieces

set_option autoImplicit false

/-!
# Reading a command line

The constructor of `ProcessTracker` reads `/proc/<pid>/cmdline` a character at a time in two
nested endless loops. The inner one ends at a NUL, and takes the character of an empty read
for one; the outer one ends when the stream does.
-/
namespace Shashlik.CommandLines
open ProcessTrackers TerminatedPieces

def nul : Char := Char.ofNat 0

theorem readArguments_nul (arg rest : List Char) :
    readArguments arg (nul :: rest) =
      if rest = [] then [String.ofList arg] else String.ofList arg :: readArguments [] rest :=
  rfl

theorem readArguments_cons (arg : List Char) (c : Char) (rest : List Char) (h : c ≠ nul) :
    readArguments arg (c :: rest) = readArguments (arg ++ [c]) rest := by
  rw [readArguments, if_neg (show c ≠ Char.ofNat 0 from h)]

/-- What `QFile::Text` makes of a file: carriage returns may be dropped. -/
structure TextMode where
  translate : List Char → List Char
  sublist : ∀ content, (translate content).Sublist content
  keeps : ∀ content,
    (translate content).filter (fun c => c ≠ '\r') = content.filter (fun c => c ≠ '\r')

/-- The two loops between two reads. -/
structure Loops where
  stream : List Char
  arg : List Char
  arguments : List String
  /-- How often character 0 of an empty read was taken. -/
  emptyReads : ℕ
  done : Bool

def Loops.start (stream : List Char) : Loops := ⟨stream, [], [], 0, false⟩

def Loops.chr (l : Loops) : Char := l.stream.headD nul

/-- One turn of the inner loop, with the rest of the outer one when it is left. -/
def Loops.step (l : Loops) : Loops :=
  if l.done then l
  else
    let l' := { l with
      stream := l.stream.tail
      emptyReads := if l.stream = [] then l.emptyReads + 1 else l.emptyReads }
    if l.chr = nul then
      let l' := { l' with arguments := l'.arguments ++ [String.ofList l'.arg] }
      if l'.stream = [] then { l' with done := true } else { l' with arg := [] }
    else { l' with arg := l'.arg ++ [l.chr] }

/-- The one read past the end, when no NUL ends the stream. -/
def emptyReadsOf (stream : List Char) : ℕ := if stream.getLast? = some nul then 0 else 1

theorem loops_end (stream arg : List Char) (args : List String) (n : ℕ) :
    ∃ turns last, Loops.step^[turns] ⟨stream, arg, args, n, false⟩ =
      ⟨[], last, args ++ readArguments arg stream, n + emptyReadsOf stream, true⟩ := by
  induction stream generalizing arg args with
  | nil => exact ⟨1, arg, rfl⟩
  | cons c rest ih =>
    by_cases hc : c = nul
    · subst hc
      by_cases hrest : rest = []
      · subst hrest
        exact ⟨1, arg, rfl⟩
      · obtain ⟨turns, last, hturns⟩ := ih [] (args ++ [String.ofList arg])
        refine ⟨turns + 1, last, ?_⟩
        have hstep : Loops.step ⟨nul :: rest, arg, args, n, false⟩ =
            ⟨rest, [], args ++ [String.ofList arg], n, false⟩ := by
          simp [Loops.step, Loops.chr, hrest]
        rw [Function.iterate_succ_apply, hstep, hturns, readArguments_nul, if_neg hrest,
          emptyReadsOf, emptyReadsOf, List.getLast?_cons_of_ne_nil hrest, List.append_assoc]
        rfl
    · obtain ⟨turns, last, hturns⟩ := ih (arg ++ [c]) args
      refine ⟨turns + 1, last, ?_⟩
      have hstep : Loops.step ⟨c :: rest, arg, args, n, false⟩ =
          ⟨rest, arg ++ [c], args, n, false⟩ := by
        simp [Loops.step, Loops.chr, hc]
      have hlast : emptyReadsOf (c :: rest) = emptyReadsOf rest := by
        by_cases hrest : rest = []
        · simp [emptyReadsOf, hrest, hc]
        · rw [emptyReadsOf, emptyReadsOf, List.getLast?_cons_of_ne_nil hrest]
      rw [Function.iterate_succ_apply, hstep, hturns, readArguments_cons arg c rest hc, hlast]

theorem step_done (l : Loops) (h : l.done = true) (turns : ℕ) : Loops.step^[turns] l = l := by
  induction turns with
  | zero => rfl
  | succ turns ih => rw [Function.iterate_succ_apply, Loops.step, if_pos h, ih]

theorem end_unique {l a b : Loops} {m n : ℕ} (ha : Loops.step^[m] l = a)
    (hb : Loops.step^[n] l = b) (hda : a.done = true) (hdb : b.done = true) : a = b := by
  calc
    a = Loops.step^[n] a := (step_done a hda n).symm
    _ = Loops.step^[n + m] l := by rw [Function.iterate_add_apply, ha]
    _ = Loops.step^[m] b := by rw [Nat.add_comm, Function.iterate_add_apply, hb]
    _ = b := step_done b hdb m

theorem readArguments_eq_pieces (stream arg : List Char) (h : nul ∉ arg) (hne : stream ≠ []) :
    readArguments arg stream = (pieces nul (arg ++ stream)).map String.ofList := by
  induction stream generalizing arg with
  | nil => exact absurd rfl hne
  | cons c rest ih =>
    by_cases hc : c = nul
    · subst hc
      rw [readArguments_nul, pieces_append_self nul arg rest h]
      by_cases hrest : rest = []
      · rw [if_pos hrest, hrest]
        rfl
      · rw [if_neg hrest, ih [] List.not_mem_nil hrest]
        rfl
    · have hmem : nul ∉ arg ++ [c] := by
        rw [List.mem_append, List.mem_singleton, not_or]
        exact ⟨h, Ne.symm hc⟩
      have happ : arg ++ c :: rest = (arg ++ [c]) ++ rest := by
        rw [List.append_assoc, List.singleton_append]
      rw [readArguments_cons arg c rest hc, happ]
      by_cases hrest : rest = []
      · rw [hrest, List.append_nil, pieces_of_not_mem nul _ hmem (by simp), readArguments]
        rfl
      · exact ih (arg ++ [c]) hmem hrest

/-- The constructor leaves its loops, has taken no character of an empty read, and has the
    pieces of the file as its arguments. -/
def Recovers (mode : TextMode) (content : List Char) : Prop :=
  ∃ turns last, Loops.step^[turns] (Loops.start (mode.translate content)) =
    ⟨[], last, (pieces nul content).map String.ofList, 0, true⟩

theorem recovers_iff (mode : TextMode) (content : List Char) :
    Recovers mode content ↔ (mode.translate content).getLast? = some nul ∧
      readArguments [] (mode.translate content) = (pieces nul content).map String.ofList := by
  obtain ⟨turns, last, hend⟩ := loops_end (mode.translate content) [] [] 0
  rw [List.nil_append, Nat.zero_add] at hend
  constructor
  · rintro ⟨turns', last', hend'⟩
    have hsame := end_unique hend hend' rfl rfl
    injection hsame with _ _ hargs hempty _
    refine ⟨?_, hargs⟩
    by_contra hlast
    rw [emptyReadsOf, if_neg hlast] at hempty
    exact absurd hempty (by decide)
  · rintro ⟨hlast, hargs⟩
    refine ⟨turns, last, ?_⟩
    rw [Loops.start, hend, hargs, emptyReadsOf, if_pos hlast]

theorem pieces_map_injective {ps qs : List (List Char)}
    (h : ps.map String.ofList = qs.map String.ofList) : ps = qs :=
  List.map_injective_iff.mpr (fun _ _ he => String.ofList_injective he) h

theorem TextMode.count_nul (mode : TextMode) (content : List Char) :
    (mode.translate content).count nul = content.count nul := by
  rw [← List.count_filter (l := mode.translate content) (p := fun c => c ≠ '\r') (by decide),
    mode.keeps, List.count_filter (by decide)]

/-- The command line of a process is recovered exactly when the file ends with a NUL and the
    text mode finds nothing in it to translate. -/
theorem command_line_recovered_iff (mode : TextMode) (content : List Char) :
    Recovers mode content ↔ content.getLast? = some nul ∧ mode.translate content = content := by
  rw [recovers_iff]
  constructor
  · rintro ⟨hlast, hargs⟩
    have hne : mode.translate content ≠ [] := fun h => by simp [h] at hlast
    rw [readArguments_eq_pieces _ [] List.not_mem_nil hne, List.nil_append] at hargs
    have hpieces := pieces_map_injective hargs
    have hlength := congrArg List.length hpieces
    rw [length_pieces, length_pieces, mode.count_nul, if_pos (Or.inr hlast)] at hlength
    have hcontent : content ≠ [] := fun h => by
      rw [h] at hne
      exact hne (List.sublist_nil.mp (h ▸ mode.sublist content))
    have hends : content.getLast? = some nul := by
      by_contra hopen
      rw [if_neg (by simp [hcontent, hopen])] at hlength
      omega
    refine ⟨hends, ?_⟩
    rw [← terminated_pieces nul _ hlast, hpieces, terminated_pieces nul _ hends]
  · rintro ⟨hlast, hsame⟩
    have hne : content ≠ [] := fun h => by simp [h] at hlast
    rw [hsame, readArguments_eq_pieces _ [] List.not_mem_nil hne]
    exact ⟨hlast, rfl⟩

/-- The translation as a stream does it: every carriage return is dropped. -/
def dropReturns : TextMode where
  translate content := content.filter (fun c => c ≠ '\r')
  sublist _ := List.filter_sublist
  keeps content := by simp

theorem empty_command_line_not_recovered : ¬ Recovers dropReturns [] := by
  rw [recovers_iff]
  exact fun h => absurd h.1 (by decide)

example : readArguments [] [] = [""] := rfl

end Shashlik.CommandLines
