import QueryMask.Proofs.DepthBound
import QueryMask.Proofs.Merging
import Mathlib

/-! What the fields of one name contribute to the paths, and the paths of their merged selections. -/

namespace QueryMask

def contribution (system : TypeSystem) (fragments : Fragments) (policy : Policy) (type : Name)
    (field : AppliedField) : List Path :=
  (fieldPaths system policy (pathsRun system fragments policy) type field).results

def contributionNamed (system : TypeSystem) (fragments : Fragments) (policy : Policy) (type : Name)
    (fields : List AppliedField) (name : Name) : List Path :=
  (fields.filter (·.name == name)).flatMap (contribution system fragments policy type)

/-- What some selections contribute for one possible type, if it has a discriminator. -/
def variantContribution (system : TypeSystem) (fragments : Fragments) (policy : Policy)
    (discriminator : Name → Option String) (segment : String) (selections : SelectionSet)
    (type : Name) : List Path :=
  (discriminator type).elim [] fun text =>
    (pathsRun system fragments policy selections type).results.map fun path =>
      Path.join segment (Path.join text path)

section Contributions

variable {system : TypeSystem} {fragments : Fragments} {naming? : Option FieldNaming}
  {discriminator? : Option (Name → Option String)} {selections : SelectionSet} {type : Name}

/-- A level succeeds if all its fields contribute, one after another. -/
theorem outcome_level_eq_ok_iff {policy : Policy} {paths : List Path} :
    (Run.ofExcept (appliedFields system fragments type selections) >>= Run.concatMap
        (fieldPaths system policy (pathsRun system fragments policy) type)).outcome = .ok paths ↔
      ∃ fields, appliedFields system fragments type selections = .ok fields ∧
        (∀ field ∈ fields, (fieldPaths system policy (pathsRun system fragments policy) type field).outcome =
          .ok (contribution system fragments policy type field)) ∧
        paths = fields.flatMap (contribution system fragments policy type) := by
  rw [Run.outcome_bind, bind_eq_ok_iff]
  simp only [Run.outcome_ofExcept, Run.outcome_concatMap_eq_ok_iff]
  rfl

/-- The paths of a selection set are those that its fields contribute, one after another. -/
theorem selectedPaths_eq_ok_iff (hbounds : system.Bounds fragments) {paths : List Path} :
    selectedPaths system fragments (.perType naming? discriminator?) selections type = .ok paths ↔
      ∃ fields, appliedFields system fragments type selections = .ok fields ∧
        (∀ field ∈ fields, (fieldPaths system (.perType naming? discriminator?)
          (pathsRun system fragments (.perType naming? discriminator?)) type field).outcome =
            .ok (contribution system fragments (.perType naming? discriminator?) type field)) ∧
        paths = fields.flatMap
          (contribution system fragments (.perType naming? discriminator?) type) := by
  rw [← outcome_level_eq_ok_iff, selectedPaths]
  constructor
  · intro h
    rwa [hbounds.pathsRun_eq_level (Run.ends_of_ok h)] at h
  · intro h
    rwa [hbounds.pathsRun_eq_level_of_ends (Run.ends_of_ok h)]

/-- Without cycles this holds of every policy. -/
theorem Fragments.Acyclic.selectedPaths_eq_ok_iff (hacyclic : fragments.Acyclic) {policy : Policy}
    {paths : List Path} :
    selectedPaths system fragments policy selections type = .ok paths ↔
      ∃ fields, appliedFields system fragments type selections = .ok fields ∧
        (∀ field ∈ fields, (fieldPaths system policy (pathsRun system fragments policy) type field).outcome =
          .ok (contribution system fragments policy type field)) ∧
        paths = fields.flatMap (contribution system fragments policy type) := by
  rw [← outcome_level_eq_ok_iff, selectedPaths, hacyclic.pathsRun_eq]

/-- Two lists of selections apply one after the other. -/
theorem appliedFields_append_eq_ok_iff {later : SelectionSet} {fields : List AppliedField} :
    appliedFields system fragments type (selections ++ later) = .ok fields ↔
      ∃ front laterFields, appliedFields system fragments type selections = .ok front ∧
        appliedFields system fragments type later = .ok laterFields ∧ fields = front ++ laterFields := by
  simp only [appliedFields_eq_ok_iff, collectFields_append_eq_ok_iff]
  constructor
  · rintro ⟨hkind, front, laterFields, hfront, hlater, rfl⟩
    exact ⟨front, laterFields, ⟨hkind, hfront⟩, ⟨hkind, hlater⟩, rfl⟩
  · rintro ⟨front, laterFields, ⟨hkind, hfront⟩, ⟨-, hlater⟩, rfl⟩
    exact ⟨hkind, front, laterFields, hfront, hlater, rfl⟩

theorem selectedPaths_nil (hbounds : system.Bounds fragments) (hkind : system.kind? type = some .object) :
    selectedPaths system fragments (.perType naming? discriminator?) [] type = .ok [] :=
  (selectedPaths_eq_ok_iff hbounds).mpr
    ⟨[], appliedFields_eq_ok_iff.mpr ⟨hkind, collectFields_nil⟩, by simp, rfl⟩

theorem kind_of_selectedPaths (hbounds : system.Bounds fragments) {paths : List Path}
    (h : selectedPaths system fragments (.perType naming? discriminator?) selections type = .ok paths) :
    system.kind? type = some .object := by
  obtain ⟨fields, hfields, -⟩ := (selectedPaths_eq_ok_iff hbounds).mp h
  exact (appliedFields_eq_ok_iff.mp hfields).1

/-- Paths of merged selections are those of one after those of the other. -/
theorem selectedPaths_append (hbounds : system.Bounds fragments) {later : SelectionSet}
    {paths laterPaths : List Path}
    (h : selectedPaths system fragments (.perType naming? discriminator?) selections type = .ok paths)
    (hlater : selectedPaths system fragments (.perType naming? discriminator?) later type =
      .ok laterPaths) :
    selectedPaths system fragments (.perType naming? discriminator?) (selections ++ later) type =
      .ok (paths ++ laterPaths) := by
  obtain ⟨fields, hfields, hparts, rfl⟩ := (selectedPaths_eq_ok_iff hbounds).mp h
  obtain ⟨laterFields, hlaterFields, hlaterParts, rfl⟩ := (selectedPaths_eq_ok_iff hbounds).mp hlater
  have hboth := appliedFields_append_eq_ok_iff.mpr ⟨fields, laterFields, hfields, hlaterFields, rfl⟩
  exact (selectedPaths_eq_ok_iff hbounds).mpr
    ⟨_, hboth, List.forall_mem_append.mpr ⟨hparts, hlaterParts⟩, List.flatMap_append.symm⟩

theorem selectedPaths_flatten (hbounds : system.Bounds fragments) (hkind : system.kind? type = some .object)
    {sets : List SelectionSet}
    (h : ∀ set ∈ sets, selectedPaths system fragments (.perType naming? discriminator?) set type =
      .ok (pathsRun system fragments (.perType naming? discriminator?) set type).results) :
    selectedPaths system fragments (.perType naming? discriminator?) sets.flatten type =
      .ok (sets.flatMap fun set =>
        (pathsRun system fragments (.perType naming? discriminator?) set type).results) := by
  induction sets with
  | nil => exact selectedPaths_nil hbounds hkind
  | cons set rest ih =>
    rw [List.forall_mem_cons] at h
    exact selectedPaths_append hbounds h.1 (ih h.2)

variable {field : AppliedField} {segment : String}

/-- A field with selections on a composite type contributes the paths below it, under its segment. -/
theorem contribution_of_composite
    (h : (fieldPaths system (.perType naming? discriminator?)
      (pathsRun system fragments (.perType naming? discriminator?)) type field).outcome =
        .ok (contribution system fragments (.perType naming? discriminator?) type field))
    (hsegment : segmentOf system naming? type field = some segment) {kind : TypeKind}
    (hkind : system.kind? field.returnType = some kind) (hcomposite : kind.isComposite = true)
    (hne : field.selections ≠ []) :
    ∃ below, (subPaths system (.perType naming? discriminator?)
        (pathsRun system fragments (.perType naming? discriminator?)) type field kind).outcome =
          .ok below ∧
      contribution system fragments (.perType naming? discriminator?) type field =
        below.map (Path.join segment) := by
  rcases outcome_fieldPaths_eq_ok_iff.mp h with ⟨hout, -⟩ | ⟨other, otherKind, hother, hotherKind, hcase⟩
  · exact absurd (hsegment.symm.trans hout) (by simp)
  · obtain rfl := Option.some.inj (hsegment.symm.trans hother)
    obtain rfl := Option.some.inj (hkind.symm.trans hotherKind)
    rcases hcase with ⟨hleaf, -⟩ | ⟨-, -, hbelow⟩
    · rcases hleaf with hleaf | hleaf
      · simp [hcomposite] at hleaf
      · exact absurd hleaf hne
    · exact hbelow

theorem contribution_object
    (h : (fieldPaths system (.perType naming? discriminator?)
      (pathsRun system fragments (.perType naming? discriminator?)) type field).outcome =
        .ok (contribution system fragments (.perType naming? discriminator?) type field))
    (hsegment : segmentOf system naming? type field = some segment)
    (hkind : system.kind? field.returnType = some .object) (hne : field.selections ≠ []) :
    selectedPaths system fragments (.perType naming? discriminator?) field.selections
        field.returnType = .ok (pathsRun system fragments (.perType naming? discriminator?)
          field.selections field.returnType).results ∧
    contribution system fragments (.perType naming? discriminator?) type field =
      (pathsRun system fragments (.perType naming? discriminator?) field.selections
        field.returnType).results.map (Path.join segment) := by
  obtain ⟨below, hbelow, hpaths⟩ := contribution_of_composite h hsegment hkind rfl hne
  rw [subPaths_perType, if_pos rfl] at hbelow
  rw [Run.results_eq hbelow]
  exact ⟨hbelow, hpaths⟩

theorem contribution_unexpanded
    (h : (fieldPaths system (.perType naming? none)
      (pathsRun system fragments (.perType naming? none)) type field).outcome =
        .ok (contribution system fragments (.perType naming? none) type field))
    (hsegment : segmentOf system naming? type field = some segment) {kind : TypeKind}
    (hkind : system.kind? field.returnType = some kind) (habstract : kind.isAbstract = true)
    (hne : field.selections ≠ []) :
    contribution system fragments (.perType naming? none) type field = [] := by
  obtain ⟨hcomposite, hobject⟩ := kind.composite_of_isAbstract habstract
  obtain ⟨below, hbelow, hpaths⟩ := contribution_of_composite h hsegment hkind hcomposite hne
  rw [subPaths_perType, if_neg hobject] at hbelow
  obtain rfl : [] = below := by simpa using hbelow
  rw [hpaths, List.map_nil]

/-- A field that returns an abstract type contributes for its possible types in turn. -/
theorem contribution_expanded {discriminator : Name → Option String}
    (h : (fieldPaths system (.perType naming? (some discriminator))
      (pathsRun system fragments (.perType naming? (some discriminator))) type field).outcome =
        .ok (contribution system fragments (.perType naming? (some discriminator)) type field))
    (hsegment : segmentOf system naming? type field = some segment) {kind : TypeKind}
    (hkind : system.kind? field.returnType = some kind) (habstract : kind.isAbstract = true)
    (hne : field.selections ≠ []) :
    (∀ object ∈ system.possibleTypes field.returnType, (discriminator object).isSome = true →
      selectedPaths system fragments (.perType naming? (some discriminator)) field.selections object =
        .ok (pathsRun system fragments (.perType naming? (some discriminator)) field.selections
          object).results) ∧
    contribution system fragments (.perType naming? (some discriminator)) type field =
      (system.possibleTypes field.returnType).flatMap
        (variantContribution system fragments (.perType naming? (some discriminator)) discriminator
          segment field.selections) := by
  obtain ⟨hcomposite, hobject⟩ := kind.composite_of_isAbstract habstract
  obtain ⟨below, hbelow, hpaths⟩ := contribution_of_composite h hsegment hkind hcomposite hne
  rw [subPaths_perType, if_neg hobject, Option.elim_some, Run.bind_eq_of_ok _ rfl] at hbelow
  obtain ⟨hparts, rfl⟩ := Run.outcome_concatMap_eq_ok_iff.mp hbelow
  have hpart : ∀ object ∈ system.possibleTypes field.returnType, ∀ text,
      discriminator object = some text →
      selectedPaths system fragments (.perType naming? (some discriminator)) field.selections object =
        .ok (pathsRun system fragments (.perType naming? (some discriminator)) field.selections
          object).results ∧
      (variantPaths discriminator (pathsRun system fragments (.perType naming? (some discriminator))
        field.selections) object).results = (pathsRun system fragments (.perType naming?
          (some discriminator)) field.selections object).results.map (Path.join text) := by
    intro object hpossible text htext
    have hrun := hparts object hpossible
    unfold variantPaths at hrun ⊢
    simp only [htext] at hrun ⊢
    obtain ⟨found, hfound, hresults⟩ := Run.outcome_bind_pure_eq_ok_iff.mp hrun
    rw [Run.results_eq hfound]
    exact ⟨hfound, hresults⟩
  constructor
  · intro object hpossible hsome
    obtain ⟨text, htext⟩ := Option.isSome_iff_exists.mp hsome
    exact (hpart object hpossible text htext).1
  · rw [hpaths, List.map_flatMap]
    refine List.flatMap_congr fun object hpossible => ?_
    cases htext : discriminator object with
    | none => simp [variantContribution, variantPaths, htext, Run.results, Except.toOption]
    | some text =>
      rw [(hpart object hpossible text htext).2, variantContribution, htext, Option.elim_some,
        List.map_map]
      rfl

end Contributions

end QueryMask
