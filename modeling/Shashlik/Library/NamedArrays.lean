import Mathlib.Data.List.GetD
import Mathlib.Logic.Function.Basic

set_option autoImplicit false

/-!
# Arrays of a function

A function has arrays of its own, which come and go with the blocks that declare them. A cell
that nothing was written to cannot be read, and no cell outside an array can be read or written.
A text is a run of cells up to the first zero.
-/
namespace NamedArrays

variable {ι α : Type}

abbrev Cells (α : Type) := List (Option α)

/-- The arrays that exist. -/
abbrev Arrays (ι α : Type) := ι → Option (Cells α)

def scan [DecidableEq α] (zero : α) : Cells α → Option (List α)
  | [] => none
  | none :: _ => none
  | some c :: cells => if c = zero then some [] else (scan zero cells).map (fun text => c :: text)

/-- The next cell from the first one, which is number `i`, whose content does not meet the
    condition. -/
def advance (p : α → Prop) [DecidablePred p] : Cells α → ℕ → Option ℕ
  | [], _ => none
  | none :: _, _ => none
  | some c :: cells, i => if p c then advance p cells (i + 1) else some i

def overwrite (cells : Cells α) (i : ℕ) (text : List α) : Option (Cells α) :=
  if i + text.length ≤ cells.length then
    some (cells.take i ++ (text.map some ++ cells.drop (i + text.length)))
  else none

namespace Arrays

section
variable [DecidableEq ι]

def declare (s : Arrays ι α) (a : ι) (size : ℕ) : Arrays ι α :=
  Function.update s a (some (List.replicate size none))

def leave (s : Arrays ι α) (a : ι) : Arrays ι α := Function.update s a none

def write (s : Arrays ι α) (a : ι) (i : ℕ) (text : List α) : Option (Arrays ι α) :=
  (s a).bind fun cells => (overwrite cells i text).map fun cells => Function.update s a (some cells)

end

def read (s : Arrays ι α) (a : ι) (i : ℕ) : Option α := (s a).bind fun cells => cells[i]?.join

def text [DecidableEq α] (zero : α) (s : Arrays ι α) (a : ι) (i : ℕ) : Option (List α) :=
  (s a).bind fun cells => scan zero (cells.drop i)

/-- The arrays that are not in the list are the same. -/
def AgreeOff (own : List ι) (s s' : Arrays ι α) : Prop := ∀ a, a ∉ own → s' a = s a

def Sized (s : Arrays ι α) (a : ι) (size : ℕ) : Prop :=
  ∃ cells, s a = some cells ∧ cells.length = size

/-- The array begins with the text. -/
def Holds (zero : α) (s : Arrays ι α) (a : ι) (size : ℕ) (text : List α) : Prop :=
  zero ∉ text ∧ ∃ rest, s a = some (text.map some ++ some zero :: rest) ∧
    text.length + 1 + rest.length = size

end Arrays

/-! ### Cells -/

section
variable [DecidableEq α]

theorem scan_eq_some_iff (zero : α) (cells : Cells α) (text : List α) :
    scan zero cells = some text ↔
      zero ∉ text ∧ ∃ rest, cells = text.map some ++ some zero :: rest := by
  induction cells generalizing text with
  | nil => simp [scan]
  | cons cell cells ih =>
    cases cell with
    | none =>
      refine iff_of_false (by simp [scan]) ?_
      rintro ⟨-, rest, hcells⟩
      cases text <;> simp at hcells
    | some c =>
      rw [scan]
      by_cases hc : c = zero
      · rw [if_pos hc, hc]
        constructor
        · intro h
          rw [← Option.some.inj h]
          exact ⟨by simp, cells, rfl⟩
        · rintro ⟨hzero, rest, hcells⟩
          cases text with
          | nil => rfl
          | cons c' text =>
            simp only [List.map_cons, List.cons_append, List.cons.injEq, Option.some.injEq]
              at hcells
            exact absurd (by simp [hcells.1]) hzero
      · rw [if_neg hc, Option.map_eq_some_iff]
        constructor
        · rintro ⟨text', htext, rfl⟩
          obtain ⟨hzero, rest, rfl⟩ := (ih text').mp htext
          refine ⟨?_, rest, rfl⟩
          rw [List.mem_cons, not_or]
          exact ⟨Ne.symm hc, hzero⟩
        · rintro ⟨hzero, rest, hcells⟩
          cases text with
          | nil =>
            simp only [List.map_nil, List.nil_append, List.cons.injEq, Option.some.injEq] at hcells
            exact absurd hcells.1 hc
          | cons c' text =>
            simp only [List.map_cons, List.cons_append, List.cons.injEq, Option.some.injEq]
              at hcells
            obtain ⟨rfl, rfl⟩ := hcells
            exact ⟨text, (ih text).mpr ⟨fun h => hzero (List.mem_cons_of_mem _ h), rest, rfl⟩, rfl⟩

theorem scan_text {zero : α} {text : List α} (h : zero ∉ text) (rest : Cells α) :
    scan zero (text.map some ++ some zero :: rest) = some text :=
  (scan_eq_some_iff zero _ text).mpr ⟨h, rest, rfl⟩

end

theorem advance_run {p : α → Prop} [DecidablePred p] (run : List α) (hrun : ∀ c ∈ run, p c) {c : α}
    (hc : ¬ p c) (rest : Cells α) (i : ℕ) :
    advance p (run.map some ++ some c :: rest) i = some (i + run.length) := by
  induction run generalizing i with
  | nil => exact if_neg hc
  | cons b run ih =>
    rw [List.forall_mem_cons] at hrun
    rw [List.map_cons, List.cons_append, advance, if_pos hrun.1, ih hrun.2, List.length_cons]
    congr 1
    omega

theorem overwrite_eq {cells : Cells α} {i : ℕ} {text : List α}
    (h : i + text.length ≤ cells.length) : overwrite cells i text =
      some (cells.take i ++ (text.map some ++ cells.drop (i + text.length))) := if_pos h

namespace Arrays

theorem AgreeOff.refl (own : List ι) (s : Arrays ι α) : AgreeOff own s s := fun _ _ => rfl

theorem AgreeOff.trans {own : List ι} {s s' s'' : Arrays ι α} (h : AgreeOff own s s')
    (h' : AgreeOff own s' s'') : AgreeOff own s s'' := fun a ha => (h' a ha).trans (h a ha)

theorem AgreeOff.mono {own own' : List ι} {s s' : Arrays ι α} (h : AgreeOff own s s')
    (hsub : own ⊆ own') : AgreeOff own' s s' := fun a ha => h a fun hmem => ha (hsub hmem)

theorem Holds.sized {zero : α} {s : Arrays ι α} {a : ι} {size : ℕ} {t : List α}
    (h : Holds zero s a size t) : Sized s a size := by
  obtain ⟨-, rest, hs, hsize⟩ := h
  refine ⟨_, hs, ?_⟩
  rw [List.length_append, List.length_map, List.length_cons]
  omega

theorem Holds.congr {zero : α} {s s' : Arrays ι α} {a : ι} {size : ℕ} {t : List α}
    (h : Holds zero s a size t) (ha : s' a = s a) : Holds zero s' a size t := by
  rwa [Holds, ha]

theorem Sized.congr {s s' : Arrays ι α} {a : ι} {size : ℕ} (h : Sized s a size)
    (ha : s' a = s a) : Sized s' a size := by
  rwa [Sized, ha]

theorem Sized.agree {own : List ι} {s s' : Arrays ι α} {a : ι} {size : ℕ} (h : Sized s a size)
    (hagree : AgreeOff own s s') (ha : a ∉ own) : Sized s' a size := h.congr (hagree a ha)

theorem Holds.agree {own : List ι} {zero : α} {s s' : Arrays ι α} {a : ι} {size : ℕ} {t : List α}
    (h : Holds zero s a size t) (hagree : AgreeOff own s s') (ha : a ∉ own) :
    Holds zero s' a size t := h.congr (hagree a ha)

theorem Holds.text [DecidableEq α] {zero : α} {s : Arrays ι α} {a : ι} {size : ℕ} {t : List α}
    (h : Holds zero s a size t) {i : ℕ} (hi : i ≤ t.length) :
    s.text zero a i = some (t.drop i) := by
  obtain ⟨hzero, rest, hs, -⟩ := h
  rw [Arrays.text, hs, Option.bind_some, List.drop_append_of_le_length (by simpa using hi),
    ← List.map_drop]
  exact scan_text (fun hmem => hzero (List.mem_of_mem_drop hmem)) rest

theorem Holds.read {zero : α} {s : Arrays ι α} {a : ι} {size : ℕ} {t : List α}
    (h : Holds zero s a size t) {i : ℕ} (hi : i ≤ t.length) :
    s.read a i = some (t.getD i zero) := by
  obtain ⟨-, rest, hs, -⟩ := h
  rw [Arrays.read, hs, Option.bind_some]
  obtain hlt | rfl := Nat.lt_or_eq_of_le hi
  · rw [List.getElem?_append_left (by simpa using hlt), List.getElem?_map,
      List.getElem?_eq_getElem hlt, List.getD_eq_getElem _ _ hlt]
    rfl
  · rw [List.getElem?_append_right (by simp), List.getD_eq_default _ _ (Nat.le_refl _)]
    simp

theorem read_append {s : Arrays ι α} {a : ι} {front rest : Cells α} {c : α}
    (h : s a = some (front ++ some c :: rest)) : s.read a front.length = some c := by
  rw [read, h, Option.bind_some, List.getElem?_append_right (Nat.le_refl _), Nat.sub_self]
  rfl

section
variable [DecidableEq ι]

theorem declare_sized (s : Arrays ι α) (a : ι) (size : ℕ) : Sized (s.declare a size) a size :=
  ⟨_, Function.update_self .., List.length_replicate ..⟩

theorem Sized.declare {s : Arrays ι α} {a b : ι} {size : ℕ} (h : Sized s a size) (hne : a ≠ b)
    (size' : ℕ) : Sized (s.declare b size') a size := h.congr (Function.update_of_ne hne _ _)

theorem agreeOff_update {own : List ι} (s : Arrays ι α) {a : ι} (ha : a ∈ own)
    (cells : Option (Cells α)) : AgreeOff own s (Function.update s a cells) := by
  intro a' ha'
  refine Function.update_of_ne ?_ _ _
  rintro rfl
  exact ha' ha

theorem write_eq {s : Arrays ι α} {a : ι} {cells : Cells α} (h : s a = some cells) {i : ℕ}
    {text : List α} (hfits : i + text.length ≤ cells.length) :
    s.write a i text = some (Function.update s a
      (some (cells.take i ++ (text.map some ++ cells.drop (i + text.length))))) := by
  rw [write, h, Option.bind_some, overwrite_eq hfits]
  rfl

theorem write_append {s : Arrays ι α} {a : ι} {front rest : Cells α} {old : Option α}
    (h : s a = some (front ++ old :: rest)) (c : α) : s.write a front.length [c] =
      some (Function.update s a (some (front ++ some c :: rest))) := by
  have hdrop : (front ++ old :: rest).drop (front.length + 1) = rest := by
    rw [List.drop_length_add_append]
    rfl
  rw [write_eq h (by simp), List.take_left, List.length_singleton, hdrop]
  rfl

theorem Sized.write {zero : α} {s : Arrays ι α} {a : ι} {size : ℕ} (h : Sized s a size)
    {t : List α} (ht : zero ∉ t) (hfits : t.length + 1 ≤ size) :
    ∃ s', s.write a 0 (t ++ [zero]) = some s' ∧ Holds zero s' a size t ∧ AgreeOff [a] s s' := by
  obtain ⟨cells, hs, rfl⟩ := h
  have hlength : (t ++ [zero]).length = t.length + 1 := List.length_append
  refine ⟨_, write_eq hs (by omega), ⟨ht, cells.drop (t.length + 1), ?_, ?_⟩,
    agreeOff_update s List.mem_cons_self _⟩
  · rw [Function.update_self, hlength, Nat.zero_add, List.take_zero, List.nil_append,
      List.map_append, List.append_assoc]
    rfl
  · rw [List.length_drop]
    omega

/-- A text that is written into another one takes the place of its end. -/
theorem Holds.write {zero : α} {s : Arrays ι α} {a : ι} {size : ℕ} {t : List α}
    (h : Holds zero s a size t) {i : ℕ} (hi : i ≤ t.length) {v : List α} (hv : zero ∉ v)
    (hfits : i + (v.length + 1) ≤ size) : ∃ s', s.write a i (v ++ [zero]) = some s' ∧
      Holds zero s' a size (t.take i ++ v) ∧ AgreeOff [a] s s' := by
  obtain ⟨ht, rest, hs, hsize⟩ := h
  have hlength : (v ++ [zero]).length = v.length + 1 := List.length_append
  have hcells : (t.map some ++ some zero :: rest).length = size := by
    rw [List.length_append, List.length_map, List.length_cons]
    omega
  refine ⟨_, write_eq hs (by omega), ⟨?_, (t.map some ++ some zero :: rest).drop
    (i + (v.length + 1)), ?_, ?_⟩, agreeOff_update s List.mem_cons_self _⟩
  · rw [List.mem_append, not_or]
    exact ⟨fun hmem => ht (List.mem_of_mem_take hmem), hv⟩
  · rw [Function.update_self, hlength, List.take_append_of_le_length (by simpa using hi),
      ← List.map_take, List.map_append, List.map_append, List.append_assoc, List.append_assoc]
    rfl
  · rw [List.length_append, List.length_take, List.length_drop, hcells]
    omega

end

end Arrays

end NamedArrays
