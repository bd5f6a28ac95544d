import Mathlib.Data.List.Basic

set_option autoImplicit false

/-!
# Stores and their latest writes

A store is anything with cells that can be written and read back one at a time. Whatever the
representation, a cell read after a sequence of writes holds the latest value written to it.
-/
namespace LatestWrites

section
variable {κ ν : Type} [DecidableEq κ]

/-- The value of the last write to a key, if there is one. -/
def latest : List (κ × ν) → κ → Option ν
  | [], _ => none
  | (k', v) :: ws, k => (latest ws k).or (if k' = k then some v else none)

theorem latest_eq_none_iff (ws : List (κ × ν)) (k : κ) :
    latest ws k = none ↔ ∀ w ∈ ws, w.1 ≠ k := by
  induction ws with
  | nil => simp [latest]
  | cons w ws ih =>
    obtain ⟨k', v⟩ := w
    by_cases h : k' = k <;> simp [latest, ih, h]

theorem mem_of_latest_eq_some (ws : List (κ × ν)) (k : κ) (v : ν) (h : latest ws k = some v) :
    (k, v) ∈ ws := by
  induction ws with
  | nil => simp [latest] at h
  | cons w ws ih =>
    obtain ⟨k', v'⟩ := w
    rw [latest, Option.or_eq_some_iff] at h
    rcases h with h | ⟨_, h⟩
    · exact List.mem_cons_of_mem _ (ih h)
    · split at h
      · next he => simp only [Option.some.injEq] at h; subst he h; exact List.mem_cons_self
      · exact absurd h (by simp)

theorem latest_map {κ' : Type} [DecidableEq κ'] (f : κ → κ') (ws : List (κ × ν)) (k : κ)
    (h : ∀ w ∈ ws, f w.1 = f k → w.1 = k) :
    latest (ws.map (fun w => (f w.1, w.2))) (f k) = latest ws k := by
  induction ws with
  | nil => rfl
  | cons w ws ih =>
    obtain ⟨k', v⟩ := w
    have hrest := ih (fun w hw => h w (List.mem_cons_of_mem _ hw))
    have hk : f k' = f k ↔ k' = k := ⟨h (k', v) List.mem_cons_self, fun e => e ▸ rfl⟩
    simp only [List.map_cons, latest, hrest, hk]

/-- A representation of a store: reading a cell after one write. -/
structure Cells (σ κ ν : Type) [DecidableEq κ] where
  get : σ → κ → Option ν
  set : σ → κ → ν → σ
  get_set : ∀ s k v k', get (set s k v) k' = if k' = k then some v else get s k'

theorem Cells.get_writes {σ : Type} (C : Cells σ κ ν) (ws : List (κ × ν)) (s : σ) (k : κ) :
    C.get (ws.foldl (fun s w => C.set s w.1 w.2) s) k = (latest ws k).or (C.get s k) := by
  induction ws generalizing s with
  | nil => simp [latest]
  | cons w ws ih =>
    obtain ⟨k', v⟩ := w
    rw [List.foldl_cons, ih, C.get_set, latest, Option.or_assoc]
    congr 1
    by_cases h : k = k'
    · simp [h]
    · simp [h, Ne.symm h]

end
end LatestWrites
