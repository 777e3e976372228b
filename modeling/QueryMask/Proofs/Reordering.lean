import QueryMask.Proofs.Depth
import Mathlib

/-! Type systems that differ in the order of possible types: path building succeeds on both or on none,
with the same paths up to order. -/

namespace QueryMask

/-- Type systems with the same answers, apart from the order in which types are listed. -/
structure TypeSystem.Reordered (system other : TypeSystem) : Prop where
  kind : ∀ name, system.kind? name = other.kind? name
  field : ∀ type field, system.field? type field = other.field? type field
  possible : ∀ name, (system.possibleTypes name).Perm (other.possibleTypes name)
  objects : system.objectTypes.Perm other.objectTypes

/-- The naming reads the definition of a field and its parent type, and nothing else. -/
def FieldNaming.IgnoresSystem (naming : FieldNaming) : Prop :=
  ∀ system other parent definition, naming system parent definition = naming other parent definition

namespace TypeSystem.Reordered

variable {system other : TypeSystem}

theorem symm (h : system.Reordered other) : other.Reordered system where
  kind name := (h.kind name).symm
  field type field := (h.field type field).symm
  possible name := (h.possible name).symm
  objects := h.objects.symm

theorem isPossible_eq (h : system.Reordered other) (abstract object : Name) :
    system.isPossible abstract object = other.isPossible abstract object :=
  decide_eq_decide.mpr (h.possible abstract).mem_iff

theorem satisfies_eq (h : system.Reordered other) (condition object : Name) :
    system.satisfies condition object = other.satisfies condition object := by
  unfold satisfies
  rw [h.kind, h.isPossible_eq]

end TypeSystem.Reordered

/-- The second run succeeds where the first one does, with the same results up to order. -/
def Run.CoveredBy {β : Type} (run other : Run (List β)) : Prop :=
  ∀ results, run.outcome = .ok results → ∃ found, other.outcome = .ok found ∧ results.Perm found

namespace Run

variable {α β : Type}

theorem congruent_perm : Congruent fun results found : List β => results.Perm found where
  refl := List.Perm.refl
  map f h := h.map f
  append h hlater := h.append hlater

/-- Runs over a list are covered by those over the list in another order. -/
theorem CoveredBy.concatMap {f g : α → Run (List β)} {items others : List α}
    (hitems : items.Perm others) (h : ∀ item ∈ items, (f item).CoveredBy (g item)) :
    (concatMap f items).CoveredBy (concatMap g others) := by
  intro joined hjoined
  obtain ⟨hparts, rfl⟩ := outcome_concatMap_eq_ok_iff.mp hjoined
  have hfound : ∀ item ∈ items,
      (g item).outcome = .ok (g item).results ∧ (f item).results.Perm (g item).results := by
    intro item hitem
    obtain ⟨found, hfound, hperm⟩ := h item hitem _ (hparts item hitem)
    rw [results_eq hfound]
    exact ⟨hfound, hperm⟩
  refine ⟨others.flatMap fun item => (g item).results, ?_, ?_⟩
  · exact outcome_concatMap_eq_ok_iff.mpr
      ⟨fun item hitem => (hfound item (hitems.mem_iff.mpr hitem)).1, rfl⟩
  · exact hitems.flatMap fun item hitem => (hfound item hitem).2

end Run

section Fields

variable {system other : TypeSystem} {fragments : Fragments} {type : Name}

/-- Collecting fields only reads the fields of the type, and whether it satisfies the conditions of the document. -/
theorem collectFields_congr (hfield : ∀ name, system.field? type name = other.field? type name)
    (active : List Name) (selections : SelectionSet)
    (hsatisfies : ∀ condition ∈ SelectionSet.conditions selections ++ fragments.conditions,
      system.satisfies condition type = other.satisfies condition type) :
    collectFields system fragments type active selections =
      collectFields other fragments type active selections := by
  induction active, selections using fragments.traversal with
  | nil active => rw [collectFields_nil, collectFields_nil]
  | field active alias? name arguments directives selections rest ihrest =>
    rw [SelectionSet.conditions, List.append_assoc, List.forall_mem_append] at hsatisfies
    rw [collectFields_cons, collectFields_cons, ihrest hsatisfies.2]
    simp only [firstFields, hfield]
  | spread active name directives rest ihbody ihrest =>
    rw [SelectionSet.conditions, List.append_assoc, List.forall_mem_append] at hsatisfies
    rw [collectFields_cons, collectFields_cons, ihrest hsatisfies.2]
    cases hfind : fragments.find? name with
    | none => simp only [firstFields, hfind]
    | some fragment =>
      have hfragments := (List.forall_mem_append.mp hsatisfies.2).2
      have hfragment := List.forall_mem_cons.mp fun condition hcondition =>
        hfragments condition (Fragments.conditions_subset hfind hcondition)
      simp only [firstFields, hfind, hfragment.1]
      by_cases hactive : active.contains name = true
      · simp only [hactive, if_true]
      · have hbody := List.forall_mem_append.mpr ⟨hfragment.2, hfragments⟩
        rw [ihbody fragment hfind (by simpa using hactive) hbody]
  | inline active condition? directives selections rest ihbody ihrest =>
    rw [SelectionSet.conditions, Selection.conditions, List.append_assoc, List.append_assoc,
      List.forall_mem_append, List.forall_mem_append] at hsatisfies
    obtain ⟨hcondition, hselections, hlater⟩ := hsatisfies
    have hadmits : system.admits condition? type = other.admits condition? type := by
      cases condition? with
      | none => rfl
      | some condition => exact hcondition condition List.mem_cons_self
    have hbody := List.forall_mem_append.mpr ⟨hselections, (List.forall_mem_append.mp hlater).2⟩
    rw [collectFields_cons, collectFields_cons, ihrest hlater]
    simp only [firstFields, hadmits, ihbody hbody]

theorem TypeSystem.Reordered.appliedFields_eq (h : system.Reordered other) (selections : SelectionSet) :
    appliedFields system fragments type selections = appliedFields other fragments type selections := by
  have hcollect : collectFields system fragments type [] selections =
      collectFields other fragments type [] selections :=
    collectFields_congr (h.field type) [] selections fun condition _ => h.satisfies_eq condition type
  unfold appliedFields
  rw [h.kind, hcollect]

end Fields

section Paths

variable {system other : TypeSystem} {fragments : Fragments} {naming? : Option FieldNaming}
  {discriminator? : Option (Name → Option String)} {parent : Name} {field : AppliedField}
  {compute computeOther : SelectionSet → Name → Run (List Path)}

theorem segmentOf_of_ignoresSystem (hnaming : ∀ naming ∈ naming?, naming.IgnoresSystem) :
    segmentOf system naming? parent field = segmentOf other naming? parent field := by
  cases naming? with
  | none => rfl
  | some naming => exact hnaming naming rfl system other parent field.definition

/-- Without expansion a field contributes the same, calls of the policy included. -/
theorem TypeSystem.Reordered.fieldPaths_unexpanded (h : system.Reordered other)
    (hnaming : ∀ naming ∈ naming?, naming.IgnoresSystem) :
    fieldPaths system (.perType naming? none) compute parent field =
      fieldPaths other (.perType naming? none) compute parent field := by
  have hsegment : segment? system (.perType naming? none) parent field =
      segment? other (.perType naming? none) parent field := by
    cases naming? with
    | none => rfl
    | some naming => simp only [segment?, Policy.perType, hnaming naming rfl system other]
  unfold fieldPaths
  simp only [hsegment, h.kind, subPaths_perType]
  rfl

theorem TypeSystem.Reordered.pathsWithin_unexpanded (h : system.Reordered other)
    (hnaming : ∀ naming ∈ naming?, naming.IgnoresSystem) (depth : Nat) (selections : SelectionSet)
    (type : Name) :
    pathsWithin system fragments (.perType naming? none) depth selections type =
      pathsWithin other fragments (.perType naming? none) depth selections type := by
  induction depth generalizing selections type with
  | zero => rfl
  | succ depth ih =>
    have hbelow : pathsWithin system fragments (.perType naming? none) depth =
        pathsWithin other fragments (.perType naming? none) depth :=
      funext fun selections => funext fun type => ih selections type
    rw [pathsWithin_succ, pathsWithin_succ, h.appliedFields_eq, hbelow]
    congr 1
    funext fields
    exact Run.concatMap_congr fun field _ => h.fieldPaths_unexpanded hnaming

/-- The possible types of an abstract type are taken in another order. -/
theorem TypeSystem.Reordered.expandedPaths_coveredBy (h : system.Reordered other) {type : Name}
    {compute computeOther : Name → Run (List Path)}
    (hbelow : ∀ object, (compute object).CoveredBy (computeOther object)) :
    (expandedPaths system discriminator? compute type).CoveredBy
      (expandedPaths other discriminator? computeOther type) := by
  unfold expandedPaths
  cases discriminator? with
  | none => exact Run.congruent_perm.yields_refl _
  | some discriminator =>
    exact Run.CoveredBy.concatMap (h.possible type)
      fun object _ => variantPaths_yields Run.congruent_perm (hbelow object)

theorem TypeSystem.Reordered.fieldPaths_coveredBy (h : system.Reordered other)
    (hnaming : ∀ naming ∈ naming?, naming.IgnoresSystem)
    (hbelow : ∀ type, (compute field.selections type).CoveredBy (computeOther field.selections type)) :
    (fieldPaths system (.perType naming? discriminator?) compute parent field).CoveredBy
      (fieldPaths other (.perType naming? discriminator?) computeOther parent field) := by
  have hsegment : segmentOf other naming? parent field = segmentOf system naming? parent field :=
    segmentOf_of_ignoresSystem hnaming
  have hkind : ∀ kind, system.kind? field.returnType = some kind →
      other.kind? field.returnType = some kind := fun kind hkind => h.kind _ ▸ hkind
  refine fieldPaths_yields Run.congruent_perm hsegment hkind Iff.rfl fun kind _ => ?_
  exact subPaths_yields rfl (hbelow _) (h.expandedPaths_coveredBy hbelow)

/-- What holds one level down holds of the level: the fields are the same, and each is covered. -/
theorem TypeSystem.Reordered.pathsWithin_coveredBy (h : system.Reordered other)
    (hnaming : ∀ naming ∈ naming?, naming.IgnoresSystem) (depth : Nat) (selections : SelectionSet)
    (type : Name) :
    (pathsWithin system fragments (.perType naming? discriminator?) depth selections type).CoveredBy
      (pathsWithin other fragments (.perType naming? discriminator?) depth selections type) := by
  induction depth generalizing selections type with
  | zero =>
    rw [pathsWithin, pathsWithin]
    exact Run.congruent_perm.yields_refl _
  | succ depth ih =>
    rw [pathsWithin_succ, pathsWithin_succ, h.appliedFields_eq]
    cases appliedFields other fragments type selections with
    | error fault =>
      rw [Run.ofExcept_error_bind, Run.ofExcept_error_bind]
      exact Run.congruent_perm.yields_refl _
    | ok fields =>
      rw [Run.ofExcept_ok_bind, Run.ofExcept_ok_bind]
      exact Run.CoveredBy.concatMap (.refl fields)
        fun field _ => h.fieldPaths_coveredBy hnaming (ih field.selections)

theorem TypeSystem.Reordered.depthBound_eq (h : system.Reordered other) (selections : SelectionSet) :
    depthBound system fragments selections = depthBound other fragments selections := by
  unfold depthBound
  rw [h.objects.length_eq]

theorem TypeSystem.Reordered.selectedPaths_unexpanded (h : system.Reordered other)
    (hnaming : ∀ naming ∈ naming?, naming.IgnoresSystem) (selections : SelectionSet) (type : Name) :
    selectedPaths system fragments (.perType naming? none) selections type =
      selectedPaths other fragments (.perType naming? none) selections type := by
  unfold selectedPaths pathsRun
  rw [h.depthBound_eq, h.pathsWithin_unexpanded hnaming]

theorem TypeSystem.Reordered.exists_selectedPaths (h : system.Reordered other)
    (hnaming : ∀ naming ∈ naming?, naming.IgnoresSystem) {selections : SelectionSet} {type : Name}
    {paths : List Path}
    (hpaths : selectedPaths system fragments (.perType naming? discriminator?) selections type =
      .ok paths) :
    ∃ found, selectedPaths other fragments (.perType naming? discriminator?) selections type =
        .ok found ∧ paths.Perm found := by
  unfold selectedPaths pathsRun at hpaths ⊢
  rw [← h.depthBound_eq]
  exact h.pathsWithin_coveredBy hnaming _ selections type paths hpaths

end Paths

end QueryMask
