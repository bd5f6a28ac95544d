import Mathlib.Data.List.Basic

set_option autoImplicit false

/-!
# Terminated pieces

A sequence is cut behind every terminator. Empty pieces count, and so does a last piece that
no terminator ends, unless it is empty. A sequence that ends with the terminator is its
pieces, each with the terminator put back.
-/
namespace TerminatedPieces

variable {α : Type*} [DecidableEq α] (z : α)

def pieces : List α → List (List α)
  | [] => []
  | a :: s =>
    if a = z then [] :: pieces s
    else
      match pieces s with
      | [] => [[a]]
      | p :: ps => (a :: p) :: ps

def terminated (ps : List (List α)) : List α := ps.flatMap (fun p => p ++ [z])

@[simp] theorem pieces_nil : pieces z [] = [] := rfl

@[simp] theorem pieces_cons_self (s : List α) : pieces z (z :: s) = [] :: pieces z s := by
  rw [pieces, if_pos rfl]

theorem pieces_eq_nil_iff (s : List α) : pieces z s = [] ↔ s = [] := by
  cases s with
  | nil => simp
  | cons a s =>
    rw [pieces]
    split
    · simp
    · split <;> simp

theorem pieces_append_self (p s : List α) (h : z ∉ p) : pieces z (p ++ z :: s) = p :: pieces z s := by
  induction p with
  | nil => simp
  | cons a p ih =>
    rw [List.mem_cons, not_or] at h
    rw [List.cons_append, pieces, if_neg (Ne.symm h.1), ih h.2]

theorem pieces_of_not_mem (p : List α) (h : z ∉ p) (hne : p ≠ []) : pieces z p = [p] := by
  induction p with
  | nil => exact absurd rfl hne
  | cons a p ih =>
    rw [List.mem_cons, not_or] at h
    rw [pieces, if_neg (Ne.symm h.1)]
    by_cases hp : p = []
    · rw [hp, pieces_nil]
    · rw [ih h.2 hp]

theorem length_pieces (s : List α) :
    (pieces z s).length = s.count z + if s = [] ∨ s.getLast? = some z then 0 else 1 := by
  induction s with
  | nil => simp
  | cons a s ih =>
    by_cases hs : s = []
    · subst hs
      by_cases ha : a = z
      · simp [ha]
      · simp [pieces, ha]
    · have hlast : (a :: s).getLast? = s.getLast? := List.getLast?_cons_of_ne_nil hs
      have hne : pieces z s ≠ [] := fun h => hs ((pieces_eq_nil_iff z s).mp h)
      rw [hlast]
      simp only [hs, false_or, List.cons_ne_nil] at ih ⊢
      by_cases ha : a = z
      · rw [ha, pieces_cons_self, List.length_cons, ih, List.count_cons_self]
        omega
      · rw [List.count_cons_of_ne ha, ← ih, pieces, if_neg ha]
        split
        · exact absurd ‹_› hne
        · rename_i heq
          rw [heq, List.length_cons, List.length_cons]

theorem terminated_pieces (s : List α) (h : s.getLast? = some z) :
    terminated z (pieces z s) = s := by
  induction s with
  | nil => exact absurd h (by simp)
  | cons a s ih =>
    by_cases hs : s = []
    · subst hs
      have ha : a = z := by simpa using h
      simp [ha, terminated]
    · rw [List.getLast?_cons_of_ne_nil hs] at h
      by_cases ha : a = z
      · rw [ha, pieces_cons_self, terminated, List.flatMap_cons, ← terminated, ih h]
        rfl
      · have hne : pieces z s ≠ [] := fun he => hs ((pieces_eq_nil_iff z s).mp he)
        rw [pieces, if_neg ha]
        split
        · exact absurd ‹_› hne
        · rename_i p ps heq
          have hrest := ih h
          rw [heq, terminated, List.flatMap_cons] at hrest
          rw [terminated, List.flatMap_cons, List.cons_append, List.cons_append, hrest]

end TerminatedPieces
