import Mathlib.Data.List.AList
import Mathlib.Data.List.Induction
import Mathlib.Logic.Function.Iterate
import Shashlik.Library.SegmentPaths
import Shashlik.Library.LatestWrites

set_option autoImplicit false

/-!
# The settings store of the property daemon

`QSettings` as the daemon relies on it: a persistent map from keys to strings, with a stack of
groups whose names prefix every key. Keys and group names are normalized: '/' separates
groups, and leading, trailing and repeated '/' are dropped.
-/
namespace Shashlik.Settings
open SegmentPaths LatestWrites

abbrev QString := List Char

structure QSettings where
  entries : AList (fun _ : QString => QString)
  /-- The open groups, innermost first. -/
  groups : List QString

def normalizedKey (key : QString) : QString := ['/'].intercalate (segments '/' key)

/-- The prefix of every key under the open groups; an empty group name adds nothing. -/
def groupPrefix : List QString → QString
  | [] => []
  | g :: gs => groupPrefix gs ++ (if g = [] then [] else g ++ ['/'])

namespace QSettings

def empty : QSettings := ⟨∅, []⟩

def beginGroup (q : QSettings) (name : QString) : QSettings :=
  { q with groups := normalizedKey name :: q.groups }

def endGroup (q : QSettings) : QSettings := { q with groups := q.groups.tail }

def actualKey (q : QSettings) (key : QString) : QString :=
  groupPrefix q.groups ++ normalizedKey key

/-- An empty key is refused with a warning. -/
def setValue (q : QSettings) (key value : QString) : QSettings :=
  if key = [] then q else { q with entries := q.entries.insert (q.actualKey key) value }

def value (q : QSettings) (key default : QString) : QString :=
  if key = [] then [] else (q.entries.lookup (q.actualKey key)).getD default

def childKeys (q : QSettings) : List QString :=
  ((q.entries.keys.filter (fun k => (groupPrefix q.groups).isPrefixOf k)).map
    (fun k => k.drop (groupPrefix q.groups).length)).filter (fun k => '/' ∉ k)

/-- A later process opens the same persisted entries, with no group open. -/
def reopen (q : QSettings) : QSettings := ⟨q.entries, []⟩

@[simp] theorem empty_groups : empty.groups = [] := rfl

theorem reopen_of_groups (q : QSettings) (h : q.groups = []) : q.reopen = q := by
  cases q
  simp only at h
  subst h
  rfl

theorem childKeys_eq_nil_iff (q : QSettings) (h : q.groups = []) :
    q.childKeys = [] ↔ ∀ k ∈ q.entries.keys, '/' ∈ k := by
  simp [childKeys, h, groupPrefix, List.filter_eq_nil_iff]

end QSettings

theorem foldl_beginGroup (names : List QString) (q : QSettings) :
    names.foldl QSettings.beginGroup q =
      { q with groups := (names.map normalizedKey).reverse ++ q.groups } := by
  induction names generalizing q with
  | nil => rfl
  | cons name names ih =>
    rw [List.foldl_cons, ih]
    simp [QSettings.beginGroup]

theorem iterate_endGroup (n : ℕ) (q : QSettings) :
    QSettings.endGroup^[n] q = { q with groups := q.groups.drop n } := by
  induction n generalizing q with
  | zero => rfl
  | succ n ih =>
    rw [Function.iterate_succ_apply, ih]
    simp [QSettings.endGroup]

theorem normalizedKey_of_not_mem (key : QString) (hne : key ≠ []) (h : '/' ∉ key) :
    normalizedKey key = key := by
  rw [normalizedKey, segments_of_not_mem '/' key hne h, List.intercalate_singleton]

theorem groupPrefix_reverse (names : List QString) (h : [] ∉ names) :
    groupPrefix names.reverse = (names.map (fun name => name ++ ['/'])).flatten := by
  induction names using List.reverseRecOn with
  | nil => rfl
  | append_singleton names name ih =>
    have hne : name ≠ [] := fun e => h (by simp [e])
    have hrest := ih (fun hm => h (by simp [hm]))
    simp [groupPrefix, hrest, hne]

def cells : Cells QSettings QString QString where
  get q key := q.entries.lookup key
  set q key value := { q with entries := q.entries.insert key value }
  get_set q key value key' := by
    by_cases h : key' = key
    · subst h; simp
    · simp [h]

end Shashlik.Settings
