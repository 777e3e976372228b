import QueryMask.Proofs.Visits
import Mathlib

/-! Runs that fail because a type is unknown: it is the one they start on, or the return type of a field that some
visit selects. -/

namespace QueryMask

section UnknownTypes

variable {system : TypeSystem} {fragments : Fragments} {naming? : Option FieldNaming}
  {discriminator? : Option (Name → Option String)} {outer inner visit : Visit} {selections : SelectionSet}
  {type name : Name}

/-- Inside the visit a field is selected, and not left out, that returns a type of this name, and there is none. -/
def Visit.Misses (system : TypeSystem) (fragments : Fragments) (naming? : Option FieldNaming)
    (discriminator? : Option (Name → Option String)) (visit : Visit) (name : Name) : Prop :=
  ∃ count inner place field, Visit.Inside system fragments naming? discriminator? count visit inner ∧
    AppliedAt system fragments inner.type inner.selections place field ∧
    segmentOf system naming? inner.type field ≠ none ∧ field.returnType = name ∧ system.kind? name = none

theorem Visit.Misses.opened (hopens : outer.Opens system fragments naming? discriminator? inner)
    (h : inner.Misses system fragments naming? discriminator? name) :
    outer.Misses system fragments naming? discriminator? name := by
  obtain ⟨count, innermost, place, field, hinside, hmisses⟩ := h
  exact ⟨count + 1, innermost, place, field, .opened hopens hinside, hmisses⟩

theorem appliedFields_unknownType_iff :
    appliedFields system fragments type selections = .error (.unknownType type) ↔
      system.kind? type ≠ some .object := by
  constructor
  · intro h
    rcases fault_of_appliedFields h with ⟨hkind, -⟩ | ⟨-, hfault⟩
    · exact hkind
    · exact hfault.elim
  · intro hkind
    rw [appliedFields, if_neg hkind]

variable (hpossible : ∀ abstract, ∀ object ∈ system.possibleTypes abstract, system.kind? object = some .object)
include hpossible

theorem Visit.Opens.kind (h : outer.Opens system fragments naming? discriminator? inner) :
    system.kind? inner.type = some .object := by
  cases h with
  | object _ _ _ hkind => exact hkind
  | possible _ _ _ _ _ _ hmem => exact hpossible _ _ hmem

/-- Only return types are looked up below an object type, since all visits are on object types. -/
theorem misses_of_pathsWithin {depth : Nat} (hkind : system.kind? visit.type = some .object)
    (h : (pathsWithin system fragments (.perType naming? discriminator?) depth visit.selections
      visit.type).outcome = .error (.unknownType name)) :
    visit.Misses system fragments naming? discriminator? name := by
  induction depth generalizing visit with
  | zero => cases h
  | succ depth ih =>
    rcases fault_of_pathsWithin h with hfields | ⟨place, field, happlied, hsegment, hnone, hfault⟩ |
      ⟨inner, hopens, hinner⟩
    · rcases fault_of_appliedFields hfields with ⟨hother, -⟩ | ⟨-, hfault⟩
      · exact absurd hkind hother
      · exact hfault.elim
    · obtain rfl := MaskError.unknownType.inj hfault
      exact ⟨0, visit, place, field, .self, happlied, hsegment, rfl, hnone⟩
    · exact (ih (hopens.kind hpossible) hinner).opened hopens

theorem selectedPaths_unknownType_iff :
    selectedPaths system fragments (.perType naming? discriminator?) selections type =
        .error (.unknownType type) ↔ system.kind? type ≠ some .object := by
  constructor
  · intro h hkind
    have hroot : system.kind? (Visit.mk selections type).type = some .object := hkind
    obtain ⟨_, _, _, _, -, -, -, -, hnone⟩ := misses_of_pathsWithin hpossible hroot h
    rw [hkind] at hnone
    cases hnone
  · intro hkind
    have hfields : appliedFields system fragments type selections = .error (.unknownType type) :=
      appliedFields_unknownType_iff.mpr hkind
    obtain ⟨depth, hdepth⟩ := Nat.exists_eq_add_one.mpr (depthBound_pos system fragments selections)
    rw [selectedPaths, pathsRun, hdepth, pathsWithin_succ, hfields, Run.ofExcept_error_bind, Run.outcome_ofExcept]

end UnknownTypes

end QueryMask
