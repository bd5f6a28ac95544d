import Shashlik.Propertiesd

set_option autoImplicit false

/-!
# Where a property is stored

Reading and writing a property open one group per segment of its name and close them again,
so that both act on a single entry, whose key depends on the name alone.
-/
namespace Shashlik.PropertiesdPaths
open Settings CStrings SegmentPaths LatestWrites Propertiesd

/-- A name with at least one non-empty segment. -/
def Named (name : QString) : Prop := splitGroups name ≠ []

instance (name : QString) : Decidable (Named name) :=
  inferInstanceAs (Decidable (splitGroups name ≠ []))

/-- One or more non-empty '.'-separated segments without '/'. -/
def ValidName (name : QString) : Prop := Proper '.' name ∧ '/' ∉ name

instance (name : QString) : Decidable (ValidName name) :=
  inferInstanceAs (Decidable (Proper '.' name ∧ '/' ∉ name))

def propertyPath (name : QString) : QString :=
  groupPrefix ((splitGroups name).dropLast.map normalizedKey).reverse ++
    normalizedKey ((splitGroups name).getLastD [])

theorem Named.ne_nil {name : QString} (h : Named name) : name ≠ [] := by
  rintro rfl
  exact h (by decide)

theorem ValidName.named {name : QString} (h : ValidName name) : Named name :=
  segments_of_proper_ne_nil '.' name h.1

theorem getLast?_splitGroups (name : QString) (h : Named name) :
    ∃ last, (splitGroups name).getLast? = some last ∧
      (splitGroups name).getLastD [] = last ∧ last ≠ [] := by
  refine ⟨(splitGroups name).getLast h, List.getLast?_eq_some_getLast h, ?_, ?_⟩
  · rw [List.getLastD_eq_getLast?, List.getLast?_eq_some_getLast h, Option.getD_some]
  · exact mem_segments_ne_nil '.' name _ (List.getLast_mem h)

theorem open_close_groups (q : QSettings) (name : QString) (hq : q.groups = []) :
    ((splitGroups name).dropLast.foldl QSettings.beginGroup q).groups.drop
      ((splitGroups name).length - 1) = [] := by
  rw [foldl_beginGroup]
  simp [hq]

theorem actualKey_last (q : QSettings) (name last : QString) (hq : q.groups = [])
    (hlast : (splitGroups name).getLastD [] = last) :
    ((splitGroups name).dropLast.foldl QSettings.beginGroup q).actualKey last =
      propertyPath name := by
  rw [foldl_beginGroup, QSettings.actualKey, propertyPath, hlast]
  simp [hq]

theorem writeProperty_eq (q : QSettings) (name value : QString) (hq : q.groups = [])
    (h : Named name) :
    writeProperty q name value = some (cells.set q (propertyPath name) value) := by
  obtain ⟨last, hlast, hlastD, hne⟩ := getLast?_splitGroups name h
  have hkey := actualKey_last q name last hq hlastD
  have hclosed := open_close_groups q name hq
  rw [writeProperty, if_neg h.ne_nil]
  simp only [hlast, QSettings.setValue, if_neg hne, iterate_endGroup]
  rw [hkey, hclosed]
  simp only [cells, hq, foldl_beginGroup]

theorem readProperty_eq (q : QSettings) (name : QString) (hq : q.groups = [])
    (h : Named name) :
    readProperty q name = some ((cells.get q (propertyPath name)).getD [], q) := by
  obtain ⟨last, hlast, hlastD, hne⟩ := getLast?_splitGroups name h
  have hkey := actualKey_last q name last hq hlastD
  have hclosed := open_close_groups q name hq
  rw [readProperty, if_neg h.ne_nil]
  simp only [hlast, QSettings.value, if_neg hne, iterate_endGroup]
  rw [hkey, hclosed]
  simp only [cells, foldl_beginGroup, ← hq]

theorem readProperty_of_not_named (q : QSettings) (name : QString) (h : ¬ Named name) :
    readProperty q name = if name = [] then some ([], q) else none := by
  have hs : splitGroups name = [] := not_not.mp h
  simp [readProperty, hs]

theorem propertyPath_of_valid (name : QString) (h : ValidName name) :
    propertyPath name = substitute '.' '/' name := by
  obtain ⟨hp, hslash⟩ := h
  have hseg : splitGroups name = name.splitOn '.' := segments_of_proper '.' name hp
  have hne : splitGroups name ≠ [] := segments_of_proper_ne_nil '.' name hp
  have hplain : ∀ piece ∈ splitGroups name, normalizedKey piece = piece := by
    intro piece hm
    exact normalizedKey_of_not_mem piece (mem_segments_ne_nil '.' name piece hm)
      (fun hc => hslash (mem_of_mem_segments '.' '/' name piece hm hc))
  have hmap : (splitGroups name).dropLast.map normalizedKey = (splitGroups name).dropLast := by
    rw [List.map_congr_left (fun piece hm => hplain piece (List.dropLast_subset _ hm))]
    exact List.map_id _
  have hnil : [] ∉ (splitGroups name).dropLast := fun hm =>
    mem_segments_ne_nil '.' name [] (List.dropLast_subset _ hm) rfl
  have hlast : (splitGroups name).getLastD [] = (splitGroups name).getLast hne := by
    rw [List.getLastD_eq_getLast?, List.getLast?_eq_some_getLast hne, Option.getD_some]
  rw [propertyPath, hmap, groupPrefix_reverse _ hnil, hlast, hplain _ (List.getLast_mem hne)]
  change joined '/' (splitGroups name).dropLast ((splitGroups name).getLast hne) = _
  rw [← intercalate_concat, List.dropLast_append_getLast, hseg]
  exact intercalate_splitOn_eq_substitute '.' '/' name

theorem propertyPath_injective (name name' : QString) (h : ValidName name)
    (h' : ValidName name') (heq : propertyPath name = propertyPath name') : name = name' := by
  rw [propertyPath_of_valid name h, propertyPath_of_valid name' h'] at heq
  exact substitute_injective '.' '/' name name' h.2 h'.2 heq

theorem writeProperties_eq (q : QSettings) (ps : List (QString × QString)) (hq : q.groups = [])
    (h : ∀ p ∈ ps, Named p.1) :
    writeProperties q ps =
      some (ps.foldl (fun q p => cells.set q (propertyPath p.1) p.2) q) := by
  induction ps generalizing q with
  | nil => rfl
  | cons p ps ih =>
    rw [writeProperties, List.foldlM_cons, writeProperty_eq q p.1 p.2 hq (h p List.mem_cons_self)]
    exact ih _ hq (fun p hp => h p (List.mem_cons_of_mem _ hp))

theorem get_foldl_paths (q : QSettings) (ps : List (QString × QString)) (path : QString) :
    cells.get (ps.foldl (fun q p => cells.set q (propertyPath p.1) p.2) q) path =
      (latest (ps.map (fun p => (propertyPath p.1, p.2))) path).or (cells.get q path) := by
  rw [← cells.get_writes, List.foldl_map]

theorem foldl_paths_groups (q : QSettings) (ps : List (QString × QString)) :
    (ps.foldl (fun q p => cells.set q (propertyPath p.1) p.2) q).groups = q.groups := by
  induction ps generalizing q with
  | nil => rfl
  | cons p ps ih => exact ih _

/-- Both facts are read off the table at once: the names are the costly part. -/
theorem initialWrites_names : ∀ p ∈ initialWrites, ValidName p.1 ∧ '.' ∈ p.1 := by
  decide +kernel

theorem initialWrites_valid (p : QString × QString) (hp : p ∈ initialWrites) : ValidName p.1 :=
  (initialWrites_names p hp).1

theorem initialWrites_dotted (p : QString × QString) (hp : p ∈ initialWrites) : '.' ∈ p.1 :=
  (initialWrites_names p hp).2

theorem initProperties_empty :
    initProperties QSettings.empty =
      some (initialWrites.foldl (fun q p => cells.set q (propertyPath p.1) p.2) QSettings.empty) :=
  writeProperties_eq QSettings.empty initialWrites rfl
    (fun p hp => (initialWrites_valid p hp).named)

end Shashlik.PropertiesdPaths
