import Mathlib.Data.List.Basic

set_option autoImplicit false

/-!
# Names cut at a separator

`segments` cuts a name at a separator and skips the empty pieces. Joining the pieces of a
name with another separator is a substitution, which can be undone on the names that do not
use the new separator: distinct names are then joined to distinct paths.
-/
namespace SegmentPaths

section
variable {α : Type} [DecidableEq α]

/-- The pieces between separators, empty pieces skipped. -/
def segments (sep : α) (name : List α) : List (List α) :=
  (name.splitOn sep).filter (fun piece => piece ≠ [])

/-- No piece between separators is empty; in particular the name is not empty. -/
def Proper (sep : α) (name : List α) : Prop := [] ∉ name.splitOn sep

instance (sep : α) (name : List α) : Decidable (Proper sep name) :=
  inferInstanceAs (Decidable ([] ∉ name.splitOn sep))

def substitute (sep sep' : α) (name : List α) : List α :=
  name.map (fun c => if c = sep then sep' else c)

/-- Every piece but the last is followed by the separator. -/
def joined (sep : α) (pieces : List (List α)) (last : List α) : List α :=
  (pieces.map (fun piece => piece ++ [sep])).flatten ++ last

theorem mem_segments_ne_nil (sep : α) (name piece : List α) (h : piece ∈ segments sep name) :
    piece ≠ [] := by
  simpa using (List.mem_filter.mp h).2

theorem segments_of_proper (sep : α) (name : List α) (h : Proper sep name) :
    segments sep name = name.splitOn sep := by
  apply List.filter_eq_self.mpr
  intro piece hp
  have hne : piece ≠ [] := fun he => h (he ▸ hp)
  simpa using hne

theorem segments_of_proper_ne_nil (sep : α) (name : List α) (h : Proper sep name) :
    segments sep name ≠ [] := by
  rw [segments_of_proper sep name h]
  exact List.splitOn_ne_nil _ _

theorem segments_of_not_mem (sep : α) (name : List α) (hne : name ≠ []) (h : sep ∉ name) :
    segments sep name = [name] := by
  simp [segments, List.splitOn_eq_singleton h, hne]

theorem proper_of_not_mem (sep : α) (name : List α) (hne : name ≠ []) (h : sep ∉ name) :
    Proper sep name := by
  rw [Proper, List.splitOn_eq_singleton h, List.mem_singleton]
  exact hne.symm

theorem mem_of_mem_splitOn (sep c : α) (name piece : List α) (hp : piece ∈ name.splitOn sep)
    (hc : c ∈ piece) : c ∈ name := by
  induction name generalizing piece with
  | nil =>
    simp only [List.splitOn_nil, List.mem_singleton] at hp
    exact absurd hc (by simp [hp])
  | cons x name ih =>
    rw [List.splitOn_cons_eq_if_modifyHead] at hp
    split at hp
    · rcases List.mem_cons.mp hp with rfl | hp
      · simp at hc
      · exact List.mem_cons_of_mem _ (ih piece hp hc)
    · cases hs : name.splitOn sep with
      | nil => exact absurd hs (List.splitOn_ne_nil _ _)
      | cons first rest =>
        simp only [hs, List.modifyHead_cons, List.mem_cons] at hp
        rcases hp with rfl | hp
        · rcases List.mem_cons.mp hc with rfl | hc
          · exact List.mem_cons_self
          · exact List.mem_cons_of_mem _ (ih first (by simp [hs]) hc)
        · exact List.mem_cons_of_mem _ (ih piece (by simp [hs, hp]) hc)

theorem mem_of_mem_segments (sep c : α) (name piece : List α) (hp : piece ∈ segments sep name)
    (hc : c ∈ piece) : c ∈ name :=
  mem_of_mem_splitOn sep c name piece (List.mem_filter.mp hp).1 hc

omit [DecidableEq α] in
theorem intercalate_concat (sep : α) (pieces : List (List α)) (last : List α) :
    [sep].intercalate (pieces ++ [last]) = joined sep pieces last := by
  induction pieces with
  | nil => simp [joined, List.intercalate_singleton]
  | cons piece pieces ih =>
    have hne : pieces ++ [last] ≠ [] := by simp
    rw [List.cons_append, List.intercalate_cons_of_ne_nil hne, ih]
    simp [joined, List.append_assoc]

omit [DecidableEq α] in
theorem intercalate_cons_head (sep c : α) (first : List α) (rest : List (List α)) :
    [sep].intercalate ((c :: first) :: rest) = c :: [sep].intercalate (first :: rest) := by
  cases rest with
  | nil => simp [List.intercalate_singleton]
  | cons next rest => simp [List.intercalate_cons_cons]

theorem intercalate_splitOn_eq_substitute (sep sep' : α) (name : List α) :
    [sep'].intercalate (name.splitOn sep) = substitute sep sep' name := by
  induction name with
  | nil => simp [List.splitOn_nil, substitute, List.intercalate_singleton]
  | cons x name ih =>
    rw [List.splitOn_cons_eq_if_modifyHead]
    have hne : name.splitOn sep ≠ [] := List.splitOn_ne_nil _ _
    by_cases hx : x = sep
    · rw [if_pos (by simpa using hx), List.intercalate_cons_of_ne_nil hne, ih]
      simp [substitute, hx]
    · rw [if_neg (by simpa using hx)]
      cases hs : name.splitOn sep with
      | nil => exact absurd hs hne
      | cons first rest =>
        rw [List.modifyHead_cons, intercalate_cons_head, ← hs, ih]
        simp [substitute, hx]

theorem substitute_substitute (sep sep' : α) (name : List α) (h : sep' ∉ name) :
    substitute sep' sep (substitute sep sep' name) = name := by
  induction name with
  | nil => rfl
  | cons x name ih =>
    simp only [List.mem_cons, not_or] at h
    obtain ⟨hx, hrest⟩ := h
    have htail := ih hrest
    by_cases he : x = sep
    · simpa [substitute, he] using htail
    · have hne : x ≠ sep' := fun e => hx e.symm
      simpa [substitute, he, hne] using htail

theorem substitute_injective (sep sep' : α) (name name' : List α) (h : sep' ∉ name)
    (h' : sep' ∉ name') (heq : substitute sep sep' name = substitute sep sep' name') :
    name = name' := by
  rw [← substitute_substitute sep sep' name h, heq, substitute_substitute sep sep' name' h']

/-- The pieces of a path: not empty and without the separator. -/
def Pieces (sep : α) (pieces : List (List α)) : Prop := ∀ piece ∈ pieces, piece ≠ [] ∧ sep ∉ piece

theorem segments_nil (sep : α) : segments sep [] = [] := by
  simp [segments, List.splitOn_nil]

theorem segments_append_cons (sep : α) (front rest : List α) :
    segments sep (front ++ sep :: rest) = segments sep front ++ segments sep rest := by
  rw [segments, List.splitOn_append_cons_self, List.filter_append]
  rfl

theorem segments_cons_self (sep : α) (rest : List α) :
    segments sep (sep :: rest) = segments sep rest := by
  have h := segments_append_cons sep [] rest
  rwa [segments_nil, List.nil_append, List.nil_append] at h

theorem segments_cons_ne_nil (sep x : α) (rest : List α) (h : x ≠ sep) :
    segments sep (x :: rest) ≠ [] := by
  cases hs : rest.splitOn sep with
  | nil => exact absurd hs (List.splitOn_ne_nil _ _)
  | cons first pieces =>
    have hcons : (x :: rest).splitOn sep = (x :: first) :: pieces := by
      rw [List.splitOn_cons_eq_if_modifyHead, if_neg (by simpa using h), hs, List.modifyHead_cons]
    simp [segments, hcons]

theorem segments_eq_nil_iff (sep : α) (name : List α) :
    segments sep name = [] ↔ ∀ c ∈ name, c = sep := by
  induction name with
  | nil => simp [segments_nil]
  | cons x rest ih =>
    by_cases hx : x = sep
    · subst hx
      rw [segments_cons_self, ih]
      simp
    · have hne := segments_cons_ne_nil sep x rest hx
      simp [hne, hx]

theorem not_mem_of_mem_segments (sep : α) (name piece : List α)
    (hp : piece ∈ segments sep name) : sep ∉ piece := by
  have hsplit : ∀ piece ∈ name.splitOn sep, sep ∉ piece := by
    clear hp
    induction name with
    | nil => simp [List.splitOn_nil]
    | cons x rest ih =>
      rw [List.splitOn_cons_eq_if_modifyHead]
      split
      · simpa using ih
      · next hx =>
        cases hs : rest.splitOn sep with
        | nil => exact absurd hs (List.splitOn_ne_nil _ _)
        | cons first pieces =>
          rw [hs] at ih
          have hx' : sep ≠ x := fun e => hx (by simp [e])
          simpa [List.modifyHead_cons, hx'] using ih
  exact hsplit piece (List.mem_filter.mp hp).1

theorem pieces_segments (sep : α) (name : List α) : Pieces sep (segments sep name) :=
  fun piece hp => ⟨mem_segments_ne_nil sep name piece hp, not_mem_of_mem_segments sep name piece hp⟩

theorem segments_joined (sep : α) (pieces : List (List α)) (last : List α)
    (h : Pieces sep pieces) : segments sep (joined sep pieces last) = pieces ++ segments sep last := by
  induction pieces with
  | nil => simp [joined]
  | cons piece pieces ih =>
    obtain ⟨hne, hsep⟩ := h piece List.mem_cons_self
    have htail := ih (fun p hp => h p (List.mem_cons_of_mem _ hp))
    have hcons : joined sep (piece :: pieces) last = piece ++ sep :: joined sep pieces last := by
      simp [joined]
    rw [hcons, segments_append_cons, segments_of_not_mem sep piece hne hsep, htail]
    rfl

omit [DecidableEq α] in
theorem joined_joined (sep : α) (pieces pieces' : List (List α)) (last : List α) :
    joined sep pieces (joined sep pieces' last) = joined sep (pieces ++ pieces') last := by
  simp [joined, List.append_assoc]

omit [DecidableEq α] in
theorem intercalate_append_sep (sep : α) (pieces : List (List α)) (h : pieces ≠ []) :
    [sep].intercalate pieces ++ [sep] = joined sep pieces [] := by
  obtain ⟨front, last, rfl⟩ : ∃ front last, pieces = front ++ [last] :=
    ⟨pieces.dropLast, pieces.getLast h, (List.dropLast_append_getLast h).symm⟩
  rw [intercalate_concat]
  simp [joined]

end
end SegmentPaths
