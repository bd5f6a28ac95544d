import Mathlib.Data.List.Basic
import Mathlib.Data.List.Perm.Basic

set_option autoImplicit false

/-!
# Tables with linear probing

A table is a list of slots. An item is looked for from the home of its key on, slot after slot
and around the end, until its slot or a free one is met.
-/
namespace Shashlik.ProbeTables

variable {α κ : Type*} [DecidableEq κ]

/-- `none` is a free slot. -/
abbrev Table (α : Type*) := List (Option α)

/-- The walk over the slots. It has no end when it runs out of fuel. -/
def search (key : α → κ) (next : ℕ → ℕ) (table : Table α) (k : κ) : ℕ → ℕ → Option ℕ
  | 0, _ => none
  | fuel + 1, place =>
    match table[place]? with
    | some (some a) => if key a = k then some place else search key next table k fuel (next place)
    | _ => some place

def around (size place : ℕ) : ℕ := (place + 1) % size

def find (key : α → κ) (home : κ → ℕ) (table : Table α) (k : κ) : Option ℕ :=
  search key (around table.length) table k table.length (home k % table.length)

def stored (table : Table α) : List α := table.filterMap id

/-- Every item is where the walk for its key ends. -/
def Placed (key : α → κ) (home : κ → ℕ) (table : Table α) : Prop :=
  ∀ (place : ℕ) (a : α), table[place]? = some (some a) → find key home table (key a) = some place

/-- A table with these items in it. -/
structure Holds (key : α → κ) (home : κ → ℕ) (table : Table α) (items : List α) : Prop where
  placed : Placed key home table
  items : (stored table).Perm items

section
variable {key : α → κ} {home : κ → ℕ} {next : ℕ → ℕ} {table : Table α} {k : κ}

theorem search_free {place : ℕ} (h : ∀ a, table[place]? ≠ some (some a)) (fuel : ℕ) :
    search key next table k (fuel + 1) place = some place := by
  rw [search]
  split
  · next a ha => exact absurd ha (h a)
  · rfl

theorem search_taken {place : ℕ} {a : α} (h : table[place]? = some (some a)) (fuel : ℕ) :
    search key next table k (fuel + 1) place =
      if key a = k then some place else search key next table k fuel (next place) := by
  rw [search, h]

theorem search_end {fuel place p : ℕ} (h : search key next table k fuel place = some p) {a : α}
    (ha : table[p]? = some (some a)) : key a = k := by
  induction fuel generalizing place with
  | zero => cases h
  | succ fuel ih =>
    by_cases htaken : ∃ b, table[place]? = some (some b)
    · obtain ⟨b, hb⟩ := htaken
      rw [search_taken hb] at h
      by_cases hkey : key b = k
      · rw [if_pos hkey] at h
        cases h
        rw [ha] at hb
        cases hb
        exact hkey
      · exact ih (by rwa [if_neg hkey] at h)
    · rw [search_free (fun b hb => htaken ⟨b, hb⟩)] at h
      cases h
      exact absurd ⟨a, ha⟩ htaken

theorem search_isSome {size d fuel place : ℕ} (hsize : table.length = size) (hd : d < fuel)
    (hplace : place < size) (hfree : table[(place + d) % size]? = some none) :
    ∃ p, p < size ∧ search key (around size) table k fuel place = some p := by
  induction d generalizing fuel place with
  | zero =>
    obtain ⟨fuel, rfl⟩ := Nat.exists_eq_add_of_lt hd
    rw [Nat.add_zero, Nat.mod_eq_of_lt hplace] at hfree
    refine ⟨place, hplace, ?_⟩
    rw [Nat.zero_add]
    exact search_free (fun a ha => by rw [hfree] at ha; cases ha) fuel
  | succ d ih =>
    obtain ⟨fuel, rfl⟩ : ∃ n, fuel = n + 1 := ⟨fuel - 1, by omega⟩
    by_cases htaken : ∃ a, table[place]? = some (some a)
    · obtain ⟨a, ha⟩ := htaken
      rw [search_taken ha]
      by_cases hkey : key a = k
      · exact ⟨place, hplace, if_pos hkey⟩
      · rw [if_neg hkey]
        refine ih (by omega) (Nat.mod_lt _ (by omega)) ?_
        rw [around, Nat.mod_add_mod]
        rwa [show place + (d + 1) = place + 1 + d by omega] at hfree
    · exact ⟨place, hplace, search_free (fun a ha => htaken ⟨a, ha⟩) fuel⟩

theorem exists_ahead {size place f : ℕ} (hplace : place < size) (hf : f < size) :
    ∃ d, d < size ∧ (place + d) % size = f := by
  by_cases h : place ≤ f
  · exact ⟨f - place, by omega, by rw [show place + (f - place) = f by omega, Nat.mod_eq_of_lt hf]⟩
  · refine ⟨f + size - place, by omega, ?_⟩
    rw [show place + (f + size - place) = f + size by omega, Nat.add_mod_right, Nat.mod_eq_of_lt hf]

theorem find_of_free (key : α → κ) (home : κ → ℕ) {f : ℕ} (hfree : table[f]? = some none) (k : κ) :
    ∃ p, p < table.length ∧ find key home table k = some p := by
  have hf : f < table.length := (List.getElem?_eq_some_iff.mp hfree).1
  have hhome : home k % table.length < table.length := Nat.mod_lt _ (by omega)
  obtain ⟨d, hd, hahead⟩ := exists_ahead hhome hf
  exact search_isSome rfl hd hhome (by rw [hahead]; exact hfree)

theorem exists_free (h : (stored table).length < table.length) : ∃ f : ℕ, table[f]? = some none := by
  induction table with
  | nil => exact absurd h (Nat.lt_irrefl 0)
  | cons slot table ih =>
    cases slot with
    | none => exact ⟨0, rfl⟩
    | some a =>
      have hrest : (stored table).length < table.length := by
        rw [stored, List.filterMap_cons_some (show id (some a) = some a from rfl)] at h
        exact Nat.lt_of_succ_lt_succ h
      obtain ⟨f, hf⟩ := ih hrest
      exact ⟨f + 1, hf⟩

theorem mem_stored {a : α} : a ∈ stored table ↔ ∃ p : ℕ, table[p]? = some (some a) := by
  rw [stored, List.mem_filterMap]
  constructor
  · rintro ⟨slot, hslot, rfl⟩
    exact List.mem_iff_getElem?.mp hslot
  · rintro ⟨p, hp⟩
    exact ⟨some a, List.mem_of_getElem? hp, rfl⟩

/-! ### Putting an item in a free slot -/

theorem search_set_other {fuel place p q : ℕ} {a b : α} (hfree : table[p]? = some none)
    (hb : table[q]? = some (some b)) (h : search key next table k fuel place = some q) :
    search key next (table.set p (some a)) k fuel place = some q := by
  induction fuel generalizing place with
  | zero => exact h
  | succ fuel ih =>
    by_cases htaken : ∃ c, table[place]? = some (some c)
    · obtain ⟨c, hc⟩ := htaken
      have hne : p ≠ place := by
        rintro rfl
        rw [hfree] at hc
        cases hc
      have hc' : (table.set p (some a))[place]? = some (some c) := by
        rw [List.getElem?_set_ne hne, hc]
      rw [search_taken hc] at h
      rw [search_taken hc']
      by_cases hkey : key c = k
      · rwa [if_pos hkey] at h ⊢
      · rw [if_neg hkey] at h ⊢
        exact ih h
    · rw [search_free (fun c hc => htaken ⟨c, hc⟩)] at h
      cases h
      exact absurd ⟨b, hb⟩ htaken

theorem search_set_self {fuel place p : ℕ} {a : α} (hfree : table[p]? = some none)
    (hkey : key a = k) (h : search key next table k fuel place = some p) :
    search key next (table.set p (some a)) k fuel place = some p := by
  have hp : p < table.length := (List.getElem?_eq_some_iff.mp hfree).1
  induction fuel generalizing place with
  | zero => exact h
  | succ fuel ih =>
    by_cases hplace : p = place
    · subst hplace
      rw [search_taken (show (table.set p (some a))[p]? = some (some a) by
        rw [List.getElem?_set_self hp]), if_pos hkey]
    · by_cases htaken : ∃ c, table[place]? = some (some c)
      · obtain ⟨c, hc⟩ := htaken
        have hc' : (table.set p (some a))[place]? = some (some c) := by
          rw [List.getElem?_set_ne hplace, hc]
        rw [search_taken hc] at h
        rw [search_taken hc']
        by_cases hother : key c = k
        · rw [if_pos hother, Option.some.injEq] at h
          exact absurd h.symm hplace
        · rw [if_neg hother] at h ⊢
          exact ih h
      · rw [search_free (fun c hc => htaken ⟨c, hc⟩), Option.some.injEq] at h
        exact absurd h.symm hplace

theorem stored_set {p : ℕ} (hfree : table[p]? = some none) (a : α) :
    (stored (table.set p (some a))).Perm (a :: stored table) := by
  induction table generalizing p with
  | nil => cases hfree
  | cons slot table ih =>
    cases p with
    | zero =>
      cases Option.some.inj hfree
      exact List.Perm.refl _
    | succ p =>
      have hrest : (stored (table.set p (some a))).Perm (a :: stored table) := ih hfree
      cases slot with
      | none => exact hrest
      | some b => exact (hrest.cons b).trans (List.Perm.swap a b _)

end

section
variable {key : α → κ} {home : κ → ℕ} {table : Table α} {items : List α}

theorem holds_replicate (key : α → κ) (home : κ → ℕ) (size : ℕ) :
    Holds key home (List.replicate size (none : Option α)) [] where
  placed place a h := by
    rw [List.getElem?_replicate] at h
    split at h <;> cases h
  items := by
    rw [stored, List.filterMap_replicate]
    exact List.Perm.refl _

theorem Holds.mem (h : Holds key home table items) {a : α} :
    a ∈ items ↔ ∃ p : ℕ, table[p]? = some (some a) := by
  rw [← h.items.mem_iff, mem_stored]

theorem Holds.find_item (h : Holds key home table items) {a : α} (ha : a ∈ items) :
    ∃ p, find key home table (key a) = some p ∧ table[p]? = some (some a) := by
  obtain ⟨p, hp⟩ := h.mem.mp ha
  exact ⟨p, h.placed p a hp, hp⟩

theorem Holds.find_free (h : Holds key home table items) (hroom : items.length < table.length)
    {k : κ} (hk : k ∉ items.map key) :
    ∃ p, find key home table k = some p ∧ table[p]? = some none := by
  obtain ⟨f, hf⟩ := exists_free (by rwa [h.items.length_eq])
  obtain ⟨p, hp, hfind⟩ := find_of_free key home hf k
  refine ⟨p, hfind, ?_⟩
  rw [List.getElem?_eq_getElem hp]
  cases hslot : table[p] with
  | none => rfl
  | some a =>
    have ha : table[p]? = some (some a) := by rw [List.getElem?_eq_getElem hp, hslot]
    exact absurd (List.mem_map.mpr ⟨a, h.mem.mpr ⟨p, ha⟩, search_end hfind ha⟩) hk

theorem Holds.keys_injective (h : Holds key home table items) {a b : α} (ha : a ∈ items)
    (hb : b ∈ items) (hkey : key a = key b) : a = b := by
  obtain ⟨p, hp, hpa⟩ := h.find_item ha
  obtain ⟨q, hq, hqb⟩ := h.find_item hb
  rw [hkey, hq] at hp
  cases hp
  rw [hqb] at hpa
  cases hpa
  rfl

theorem Holds.set (h : Holds key home table items) {a : α} {p : ℕ}
    (hfind : find key home table (key a) = some p) (hfree : table[p]? = some none) :
    Holds key home (table.set p (some a)) (a :: items) where
  placed place b hb := by
    have hp : p < table.length := (List.getElem?_eq_some_iff.mp hfree).1
    rw [find, List.length_set]
    by_cases hplace : p = place
    · subst hplace
      rw [List.getElem?_set_self hp] at hb
      cases hb
      exact search_set_self hfree rfl hfind
    · rw [List.getElem?_set_ne hplace] at hb
      exact search_set_other hfree hb (h.placed place b hb)
  items := (stored_set hfree a).trans (h.items.cons a)

end

end Shashlik.ProbeTables
