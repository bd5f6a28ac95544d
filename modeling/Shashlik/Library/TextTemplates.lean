import Mathlib.Data.List.MinMax
import Mathlib.Tactic.Common

set_option autoImplicit false

/-!
# Templates in a text

Two ways to read a text as a template. `arg` puts a value in the place of the markers with the
lowest number; a marker is '%', an optional 'L' and one or two digits. `format` is a format
without arguments, where two '%' stand for one and every other conversion is undefined.
-/
namespace TextTemplates

def digit (c : Char) : ℕ := c.toNat - '0'.toNat

/-- A number of one or two digits at the start, and how many there are. -/
def number : List Char → Option (ℕ × ℕ)
  | [] => none
  | [d] => if d.isDigit then some (digit d, 1) else none
  | d :: e :: _ =>
    if d.isDigit then
      if e.isDigit then some (10 * digit d + digit e, 2) else some (digit d, 1)
    else none

/-- The marker that the text starts with: its number and its length. -/
def marker : List Char → Option (ℕ × ℕ)
  | [] => none
  | c :: s =>
    if c = '%' then
      if s.head? = some 'L' then (number s.tail).map (fun n => (n.1, n.2 + 2))
      else (number s).map (fun n => (n.1, n.2 + 1))
    else none

def markers : List Char → List ℕ
  | [] => []
  | c :: s => ((marker (c :: s)).map Prod.fst).toList ++ markers s

/-- Every marker with this number gives way to the value; `skip` characters are passed over. -/
def replaceMarkers (n : ℕ) (value : List Char) : ℕ → List Char → List Char
  | _, [] => []
  | skip + 1, _ :: s => replaceMarkers n value skip s
  | 0, c :: s =>
    match marker (c :: s) with
    | some (m, length) =>
      if m = n then value ++ replaceMarkers n value (length - 1) s
      else c :: replaceMarkers n value 0 s
    | none => c :: replaceMarkers n value 0 s

def arg (text value : List Char) : List Char :=
  match (markers text).min? with
  | none => text
  | some n => replaceMarkers n value 0 text

def format : List Char → Option (List Char)
  | [] => some []
  | [c] => if c = '%' then none else some [c]
  | c :: d :: s =>
    if c = '%' then
      if d = '%' then (format s).map (fun out => '%' :: out) else none
    else (format (d :: s)).map (fun out => c :: out)

/-! ### Separators -/

/-- A character that neither starts a marker nor can be a part of one. -/
def Separates (c : Char) : Prop := c ≠ '%' ∧ c ≠ 'L' ∧ c.isDigit = false

instance (c : Char) : Decidable (Separates c) := inferInstanceAs (Decidable (_ ∧ _ ∧ _))

theorem number_append (a : List Char) (c : Char) (b : List Char) (hc : c.isDigit = false) :
    number (a ++ c :: b) = number a := by
  match a with
  | [] => cases b <;> simp [number, hc]
  | [d] => simp [number, hc]
  | d :: e :: a => rfl

theorem marker_append (a : List Char) (c : Char) (b : List Char) (hc : Separates c) :
    marker (a ++ c :: b) = marker a := by
  obtain ⟨hpercent, hlocale, hdigit⟩ := hc
  match a with
  | [] => simp [marker, hpercent]
  | [d] =>
    have hwhole := number_append [] c b hdigit
    rw [List.nil_append] at hwhole
    simp [marker, hlocale, hwhole]
  | d :: e :: a =>
    have htail := number_append a c b hdigit
    have hwhole := number_append (e :: a) c b hdigit
    rw [List.cons_append] at hwhole
    simp only [List.cons_append, marker, List.head?_cons, List.tail_cons, htail, hwhole]
    rfl

theorem markers_append (a : List Char) (c : Char) (b : List Char) (hc : Separates c) :
    markers (a ++ c :: b) = markers a ++ markers b := by
  induction a with
  | nil => simp [markers, marker, hc.1]
  | cons d a ih =>
    have hmarker := marker_append (d :: a) c b hc
    rw [List.cons_append] at hmarker
    rw [List.cons_append, markers, markers, hmarker, ih, List.append_assoc]

theorem number_length (s : List Char) (n : ℕ × ℕ) (h : number s = some n) : n.2 ≤ s.length := by
  match s, h with
  | [d], h =>
    simp only [number] at h
    split at h
    · rw [← Option.some.inj h]
      simp
    · exact absurd h (by simp)
  | d :: e :: s, h =>
    simp only [number] at h
    split at h
    · split at h
      · rw [← Option.some.inj h]
        simp
      · rw [← Option.some.inj h]
        simp
    · exact absurd h (by simp)

theorem marker_length (s : List Char) (m : ℕ × ℕ) (h : marker s = some m) : m.2 ≤ s.length := by
  cases s with
  | nil => exact absurd h (by simp [marker])
  | cons c s =>
    simp only [marker] at h
    split at h
    · split at h
      · rename_i hlocale
        obtain ⟨n, hn, rfl⟩ := Option.map_eq_some_iff.mp h
        have hlength := number_length s.tail n hn
        cases s with
        | nil => exact absurd hlocale (by simp)
        | cons d s =>
          simp only [List.tail_cons, List.length_cons] at hlength ⊢
          omega
      · obtain ⟨n, hn, rfl⟩ := Option.map_eq_some_iff.mp h
        have hlength := number_length s n hn
        simp only [List.length_cons]
        omega
    · exact absurd h (by simp)

theorem replaceMarkers_append (n : ℕ) (value a : List Char) (c : Char) (b : List Char)
    (hc : Separates c) (skip : ℕ) (hskip : skip ≤ a.length) :
    replaceMarkers n value skip (a ++ c :: b) =
      replaceMarkers n value skip a ++ c :: replaceMarkers n value 0 b := by
  induction a generalizing skip with
  | nil =>
    have hzero : skip = 0 := Nat.le_zero.mp hskip
    subst hzero
    simp [replaceMarkers, marker, hc.1]
  | cons d a ih =>
    cases skip with
    | succ skip => exact ih skip (Nat.le_of_succ_le_succ hskip)
    | zero =>
      have hmarker := marker_append (d :: a) c b hc
      rw [List.cons_append] at hmarker
      rw [List.cons_append, replaceMarkers, replaceMarkers, hmarker]
      cases hm : marker (d :: a) with
      | none => simp only [ih 0 (Nat.zero_le _), List.cons_append]
      | some m =>
        have hlength := marker_length _ _ hm
        rw [List.length_cons] at hlength
        by_cases heq : m.1 = n
        · simp only [heq, ↓reduceIte, ih (m.2 - 1) (by omega), List.append_assoc]
        · simp only [heq, ↓reduceIte, ih 0 (Nat.zero_le _), List.cons_append]

@[simp] theorem format_percent (s : List Char) :
    format ('%' :: '%' :: s) = (format s).map (fun out => '%' :: out) := by
  simp [format]

theorem format_percent_of_ne (d : Char) (s : List Char) (h : d ≠ '%') :
    format ('%' :: d :: s) = none := by
  simp [format, h]

theorem format_cons_of_ne (c : Char) (s : List Char) (h : c ≠ '%') :
    format (c :: s) = (format s).map (fun out => c :: out) := by
  cases s with
  | nil => simp [format, h]
  | cons d s => simp [format, h]

theorem format_append (a : List Char) (c : Char) (b : List Char) (hc : c ≠ '%') :
    format (a ++ c :: b) =
      (format a).bind (fun x => (format b).map (fun y => x ++ c :: y)) := by
  induction a using format.induct with
  | case1 => simp [format_cons_of_ne c b hc, format]
  | case2 => simp [format, hc]
  | case3 d hd =>
    rw [List.cons_append, format_cons_of_ne d _ hd, format_cons_of_ne d _ hd]
    simp [format_cons_of_ne c b hc, format, Function.comp_def]
  | case4 s ih => simp [ih, Option.map_bind, Option.bind_map, Function.comp_def]
  | case5 d s hd => simp [format_percent_of_ne d _ hd]
  | case6 d e s hd ih =>
    rw [List.cons_append, format_cons_of_ne d _ hd, format_cons_of_ne d _ hd, ih]
    simp [Option.map_bind, Option.bind_map, Function.comp_def]

/-! ### Texts without '%' -/

theorem marker_cons_of_ne (c : Char) (s : List Char) (h : c ≠ '%') : marker (c :: s) = none := by
  rw [marker, if_neg h]

theorem markers_of_not_mem (s : List Char) (h : '%' ∉ s) : markers s = [] := by
  induction s with
  | nil => rfl
  | cons c s ih =>
    rw [List.mem_cons, not_or] at h
    rw [markers, marker_cons_of_ne c s (Ne.symm h.1), ih h.2]
    rfl

theorem replaceMarkers_of_not_mem (n : ℕ) (value s : List Char) (h : '%' ∉ s) :
    replaceMarkers n value 0 s = s := by
  induction s with
  | nil => rfl
  | cons c s ih =>
    rw [List.mem_cons, not_or] at h
    simp only [replaceMarkers, marker_cons_of_ne c s (Ne.symm h.1), ih h.2]

theorem format_of_not_mem (s : List Char) (h : '%' ∉ s) : format s = some s := by
  induction s with
  | nil => rfl
  | cons c s ih =>
    rw [List.mem_cons, not_or] at h
    rw [format_cons_of_ne c s (Ne.symm h.1), ih h.2, Option.map_some]

/-! ### What a template loses -/

/-- How a defined output is made up. -/
inductive Formats : List Char → List Char → Prop
  | nil : Formats [] []
  | percent (s out : List Char) (h : Formats s out) : Formats ('%' :: '%' :: s) ('%' :: out)
  | plain (c : Char) (s out : List Char) (hc : c ≠ '%') (h : Formats s out) :
    Formats (c :: s) (c :: out)

theorem formats_of_eq_some (s out : List Char) (h : format s = some out) : Formats s out := by
  induction s using format.induct generalizing out with
  | case1 =>
    rw [← Option.some.inj h]
    exact .nil
  | case2 => exact absurd h (by simp [format])
  | case3 d hd =>
    rw [format_cons_of_ne d _ hd] at h
    rw [← Option.some.inj h]
    exact .plain d [] [] hd .nil
  | case4 s ih =>
    rw [format_percent] at h
    obtain ⟨out', hout, rfl⟩ := Option.map_eq_some_iff.mp h
    exact .percent s out' (ih out' hout)
  | case5 d s hd => exact absurd h (by simp [format_percent_of_ne d s hd])
  | case6 d e s hd ih =>
    rw [format_cons_of_ne d _ hd] at h
    obtain ⟨out', hout, rfl⟩ := Option.map_eq_some_iff.mp h
    exact .plain d (e :: s) out' hd (ih out' hout)

theorem Formats.count {s out : List Char} (h : Formats s out) :
    s.count '%' = 2 * out.count '%' ∧ s.length = out.length + out.count '%' := by
  induction h with
  | nil => exact ⟨rfl, rfl⟩
  | percent s out _ ih =>
    obtain ⟨hcount, hlength⟩ := ih
    simp only [List.count_cons_self, List.length_cons]
    omega
  | plain c s out hc _ ih =>
    obtain ⟨hcount, hlength⟩ := ih
    rw [List.count_cons_of_ne hc, List.count_cons_of_ne hc, List.length_cons, List.length_cons]
    omega

theorem Formats.subset {s out : List Char} (h : Formats s out) : out ⊆ s := by
  induction h with
  | nil => exact List.Subset.refl []
  | percent s out _ ih => exact List.cons_subset_cons '%' (List.subset_cons_of_subset '%' ih)
  | plain c s out _ _ ih => exact List.cons_subset_cons c ih

theorem mem_replaceMarkers (n : ℕ) (value : List Char) (skip : ℕ) (s : List Char) :
    ∀ c ∈ replaceMarkers n value skip s, c ∈ value ∨ c ∈ s := by
  induction s generalizing skip with
  | nil => simp [replaceMarkers]
  | cons d s ih =>
    intro c hc
    have hrest : ∀ skip, c ∈ replaceMarkers n value skip s → c ∈ value ∨ c ∈ d :: s :=
      fun skip hc => (ih skip c hc).imp_right (List.mem_cons_of_mem _)
    have hkept : c ∈ d :: replaceMarkers n value 0 s → c ∈ value ∨ c ∈ d :: s := by
      intro hc
      rcases List.mem_cons.mp hc with rfl | hc
      · exact Or.inr List.mem_cons_self
      · exact hrest 0 hc
    cases skip with
    | succ skip => exact hrest skip hc
    | zero =>
      rw [replaceMarkers] at hc
      split at hc
      · split at hc
        · exact (List.mem_append.mp hc).elim Or.inl (hrest _)
        · exact hkept hc
      · exact hkept hc

theorem mem_arg (text value : List Char) : ∀ c ∈ arg text value, c ∈ value ∨ c ∈ text := by
  intro c hc
  rw [arg] at hc
  split at hc
  · exact Or.inr hc
  · exact mem_replaceMarkers _ value 0 text c hc

theorem count_replaceMarkers_le (n : ℕ) (value : List Char) (h : '%' ∉ value) (skip : ℕ)
    (s : List Char) : (replaceMarkers n value skip s).count '%' ≤ s.count '%' := by
  induction s generalizing skip with
  | nil => simp [replaceMarkers]
  | cons d s ih =>
    have hcons : s.count '%' ≤ (d :: s).count '%' := List.count_le_count_cons
    have hkept : (d :: replaceMarkers n value 0 s).count '%' ≤ (d :: s).count '%' := by
      rw [List.count_cons, List.count_cons]
      exact Nat.add_le_add_right (ih 0) _
    cases skip with
    | succ skip => exact (ih skip).trans hcons
    | zero =>
      rw [replaceMarkers]
      split
      · split
        · rw [List.count_append, List.count_eq_zero.mpr h, Nat.zero_add]
          exact (ih _).trans hcons
        · exact hkept
      · exact hkept

end TextTemplates
