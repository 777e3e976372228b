import QueryMask.Proofs.Contributions
import Mathlib

/-! Paths of concatenated selections, under any policy. Selections that come up again only repeat paths. -/

namespace QueryMask

theorem Path.distinct_append_of_subset {paths repeated : List Path} (h : repeated ⊆ paths) :
    Path.distinct (paths ++ repeated) = Path.distinct paths := by
  have hnone : repeated.removeAll paths = [] := by
    rw [List.removeAll, List.filter_eq_nil_iff]
    intro path hpath
    simpa using h hpath
  rw [Path.distinct, List.eraseDups_append, hnone, List.eraseDups_nil, List.append_nil]
  rfl

section Concatenation

variable {system : TypeSystem} {fragments : Fragments} {policy : Policy} {type : Name}
  {selections later : SelectionSet} {paths : List Path}

/-- Neither part of a concatenation has a say in the other, whether they fail or not. -/
theorem Fragments.Acyclic.selectedPaths_append_eq_ok_iff (hacyclic : fragments.Acyclic) :
    selectedPaths system fragments policy (selections ++ later) type = .ok paths ↔
      ∃ front back, selectedPaths system fragments policy selections type = .ok front ∧
        selectedPaths system fragments policy later type = .ok back ∧ paths = front ++ back := by
  simp only [hacyclic.selectedPaths_eq_ok_iff, appliedFields_append_eq_ok_iff]
  constructor
  · rintro ⟨_, ⟨fields, laterFields, hfields, hlaterFields, rfl⟩, hparts, rfl⟩
    obtain ⟨hfront, hback⟩ := List.forall_mem_append.mp hparts
    exact ⟨_, _, ⟨fields, hfields, hfront, rfl⟩, ⟨laterFields, hlaterFields, hback, rfl⟩,
      List.flatMap_append⟩
  · rintro ⟨_, _, ⟨fields, hfields, hfront, rfl⟩, ⟨laterFields, hlaterFields, hback, rfl⟩, rfl⟩
    exact ⟨_, ⟨fields, laterFields, hfields, hlaterFields, rfl⟩,
      List.forall_mem_append.mpr ⟨hfront, hback⟩, List.flatMap_append.symm⟩

theorem Fragments.Acyclic.selectedPaths_single (hacyclic : fragments.Acyclic)
    (h : selectedPaths system fragments policy selections type = .ok paths) {selection : Selection}
    (hmem : selection ∈ selections) :
    ∃ own, selectedPaths system fragments policy [selection] type = .ok own ∧ own ⊆ paths := by
  obtain ⟨before, behind, rfl⟩ := List.append_of_mem hmem
  obtain ⟨_, rest, -, hrest, rfl⟩ := hacyclic.selectedPaths_append_eq_ok_iff.mp h
  rw [← List.singleton_append] at hrest
  obtain ⟨own, back, hown, -, rfl⟩ := hacyclic.selectedPaths_append_eq_ok_iff.mp hrest
  refine ⟨own, hown, fun path hpath => ?_⟩
  exact List.mem_append_right _ (List.mem_append_left _ hpath)

/-- What some selections repeat of others has no path of its own, in whichever order it stands. -/
theorem Fragments.Acyclic.selectedPaths_of_subset (hacyclic : fragments.Acyclic)
    (h : selectedPaths system fragments policy selections type = .ok paths) {repeated : SelectionSet}
    (hsubset : repeated ⊆ selections) :
    ∃ again, selectedPaths system fragments policy repeated type = .ok again ∧ again ⊆ paths := by
  induction repeated with
  | nil =>
    obtain ⟨fields, hfields, -⟩ := hacyclic.selectedPaths_eq_ok_iff.mp h
    have hkind := (appliedFields_eq_ok_iff.mp hfields).1
    have hnone : appliedFields system fragments type [] = .ok [] :=
      appliedFields_eq_ok_iff.mpr ⟨hkind, collectFields_nil⟩
    exact ⟨[], hacyclic.selectedPaths_eq_ok_iff.mpr ⟨[], hnone, by simp, rfl⟩, List.nil_subset _⟩
  | cons selection rest ih =>
    obtain ⟨hmem, hrest⟩ := List.cons_subset.mp hsubset
    obtain ⟨own, hown, hownSubset⟩ := hacyclic.selectedPaths_single h hmem
    obtain ⟨again, hagain, hagainSubset⟩ := ih hrest
    rw [← List.singleton_append]
    exact ⟨own ++ again, hacyclic.selectedPaths_append_eq_ok_iff.mpr ⟨own, again, hown, hagain, rfl⟩,
      List.append_subset.mpr ⟨hownSubset, hagainSubset⟩⟩

end Concatenation

/--
Without cycles, concatenated selections succeed if both parts do, and their paths are those of the one after
those of the other. So selections that repeat some of those before them change nothing but repeats of paths.
The policy may be any: an expansion is free to ask about any types, and to answer with anything.
-/
theorem Fragments.Acyclic.selectedPaths_append_iff {fragments : Fragments} (hacyclic : fragments.Acyclic)
    (system : TypeSystem) (policy : Policy) (type : Name) (selections later : SelectionSet) :
    (∀ paths, selectedPaths system fragments policy (selections ++ later) type = .ok paths ↔
      ∃ front back, selectedPaths system fragments policy selections type = .ok front ∧
        selectedPaths system fragments policy later type = .ok back ∧ paths = front ++ back) ∧
    (later ⊆ selections → ∀ paths, selectedPaths system fragments policy selections type = .ok paths →
      ∃ all, selectedPaths system fragments policy (selections ++ later) type = .ok all ∧
        Path.distinct all = Path.distinct paths) := by
  refine ⟨fun paths => hacyclic.selectedPaths_append_eq_ok_iff, fun hsubset paths h => ?_⟩
  obtain ⟨again, hagain, hrepeats⟩ := hacyclic.selectedPaths_of_subset h hsubset
  exact ⟨paths ++ again, hacyclic.selectedPaths_append_eq_ok_iff.mpr ⟨paths, again, h, hagain, rfl⟩,
    Path.distinct_append_of_subset hrepeats⟩

/-- The expansion asks about dogs, and about birds, which there are none of: the failure is a path. -/
theorem Pets.repeated_selections :
    Pets.fragments.Acyclic ∧ Pets.selections.reverse ⊆ Pets.selections ∧
      selectedPaths Pets.schema.typeSystem Pets.fragments
          ⟨none, some (AbstractExpansion.attempts ["Dog", "Bird"])⟩ Pets.selections "Owner" =
        .ok ["id", "pet.Dog.name", "pet.Dog.breed", "pet.Bird!UNKNOWN_TYPE"] ∧
      ∃ all, selectedPaths Pets.schema.typeSystem Pets.fragments
          ⟨none, some (AbstractExpansion.attempts ["Dog", "Bird"])⟩
          (Pets.selections ++ Pets.selections.reverse) "Owner" = .ok all ∧
        Path.distinct all = ["id", "pet.Dog.name", "pet.Dog.breed", "pet.Bird!UNKNOWN_TYPE"] := by
  have hsubset : Pets.selections.reverse ⊆ Pets.selections := by simp
  have hpaths : selectedPaths Pets.schema.typeSystem Pets.fragments
      ⟨none, some (AbstractExpansion.attempts ["Dog", "Bird"])⟩ Pets.selections "Owner" =
        .ok ["id", "pet.Dog.name", "pet.Dog.breed", "pet.Bird!UNKNOWN_TYPE"] := by cbv
  have hboth := Pets.acyclic.selectedPaths_append_iff Pets.schema.typeSystem
    ⟨none, some (AbstractExpansion.attempts ["Dog", "Bird"])⟩ "Owner" Pets.selections Pets.selections.reverse
  obtain ⟨all, hall, hdistinct⟩ := hboth.2 hsubset _ hpaths
  exact ⟨Pets.acyclic, hsubset, hpaths, all, hall, hdistinct⟩

end QueryMask
