import QueryMask.Proofs.Concatenation
import QueryMask.Proofs.Reordering
import QueryMask.Proofs.Visits
import Mathlib

/-! Two selections of one field on one level, and one of them with the selections of both below it: path building
succeeds on both or on none, with the same paths up to order. -/

namespace QueryMask

/-- Two selections of one field on a level, each with selections below it, and what stands around them. -/
structure SiblingFields where
  name : Name
  before : SelectionSet
  alias? : Option Name
  arguments : List Argument
  directives : List Directive
  below : SelectionSet
  between : SelectionSet
  otherAlias? : Option Name
  otherArguments : List Argument
  otherDirectives : List Directive
  otherBelow : SelectionSet
  behind : SelectionSet
  below_ne_nil : below ≠ []
  otherBelow_ne_nil : otherBelow ≠ []

namespace SiblingFields

def first (siblings : SiblingFields) : Selection :=
  .field siblings.alias? siblings.name siblings.arguments siblings.directives siblings.below

def second (siblings : SiblingFields) : Selection :=
  .field siblings.otherAlias? siblings.name siblings.otherArguments siblings.otherDirectives siblings.otherBelow

/-- The first field, with what is below the second one at the end of what is below it. -/
def both (siblings : SiblingFields) : Selection :=
  .field siblings.alias? siblings.name siblings.arguments siblings.directives
    (siblings.below ++ siblings.otherBelow)

def apart (siblings : SiblingFields) : SelectionSet :=
  siblings.before ++ [siblings.first] ++ siblings.between ++ [siblings.second] ++ siblings.behind

/-- The level without the second field, whose selections are now below the first one. -/
def merged (siblings : SiblingFields) : SelectionSet :=
  siblings.before ++ [siblings.both] ++ siblings.between ++ siblings.behind

end SiblingFields

namespace Run

variable {β : Type} {rel weaker : List β → List β → Prop} {run first second : Run (List β)}

/-- A run that succeeds exactly if two others do, with related results to those of the one and then the other. -/
structure Joins (rel : List β → List β → Prop) (run first second : Run (List β)) : Prop where
  joined : ∀ {results others}, first.outcome = .ok results → second.outcome = .ok others →
    ∃ found, run.outcome = .ok found ∧ rel (results ++ others) found
  parts : ∀ {found}, run.outcome = .ok found →
    ∃ results others, first.outcome = .ok results ∧ second.outcome = .ok others

theorem Joins.mono (h : run.Joins rel first second) (hweaker : ∀ {results found}, rel results found →
    weaker results found) : run.Joins weaker first second where
  joined hfirst hsecond := by
    obtain ⟨found, hfound, hrelated⟩ := h.joined hfirst hsecond
    exact ⟨found, hfound, hweaker hrelated⟩
  parts := h.parts

theorem Joins.of_outcome_eq {other otherFirst otherSecond : Run (List β)} (h : run.Joins rel first second)
    (hrun : other.outcome = run.outcome) (hfirst : otherFirst.outcome = first.outcome)
    (hsecond : otherSecond.outcome = second.outcome) : other.Joins rel otherFirst otherSecond where
  joined := by
    rw [hrun, hfirst, hsecond]
    exact h.joined
  parts := by
    rw [hrun, hfirst, hsecond]
    exact h.parts

theorem joins_nil (hrel : Congruent rel) : (pure [] : Run (List β)).Joins rel (pure []) (pure []) where
  joined := by
    intro results others hfirst hsecond
    obtain rfl : [] = results := by simpa using hfirst
    obtain rfl : [] = others := by simpa using hsecond
    exact ⟨[], rfl, hrel.refl []⟩
  parts _ := ⟨[], [], rfl, rfl⟩

theorem joins_error (fault : MaskError) : (ofExcept (.error fault) : Run (List β)).Joins rel
    (ofExcept (.error fault)) (ofExcept (.error fault)) where
  joined h := by simp at h
  parts h := by simp at h

theorem Joins.map (h : run.Joins rel first second) (hrel : Congruent rel) (f : β → β) :
    (run >>= fun results => pure (results.map f)).Joins rel
      (first >>= fun results => pure (results.map f)) (second >>= fun results => pure (results.map f)) where
  joined := by
    intro mapped others hfirst hsecond
    obtain ⟨results, hresults, rfl⟩ := outcome_bind_pure_eq_ok_iff.mp hfirst
    obtain ⟨later, hlater, rfl⟩ := outcome_bind_pure_eq_ok_iff.mp hsecond
    obtain ⟨found, hfound, hrelated⟩ := h.joined hresults hlater
    refine ⟨found.map f, outcome_bind_pure_eq_ok_iff.mpr ⟨found, hfound, rfl⟩, ?_⟩
    rw [← List.map_append]
    exact hrel.map f hrelated
  parts := by
    intro mapped hmapped
    obtain ⟨found, hfound, rfl⟩ := outcome_bind_pure_eq_ok_iff.mp hmapped
    obtain ⟨results, others, hresults, hothers⟩ := h.parts hfound
    exact ⟨results.map f, others.map f, outcome_bind_pure_eq_ok_iff.mpr ⟨results, hresults, rfl⟩,
      outcome_bind_pure_eq_ok_iff.mpr ⟨others, hothers, rfl⟩⟩

/-- Going over the items once, for both runs each, instead of twice only changes the order. -/
theorem Joins.concatMap {α : Type} {f g h : α → Run (List β)} {items : List α}
    (hparts : ∀ item ∈ items, (f item).Joins Eq (g item) (h item)) :
    (concatMap f items).Joins List.Perm (concatMap g items) (concatMap h items) where
  joined := by
    intro results others hfirst hsecond
    obtain ⟨hall, rfl⟩ := outcome_concatMap_eq_ok_iff.mp hfirst
    obtain ⟨hlater, rfl⟩ := outcome_concatMap_eq_ok_iff.mp hsecond
    have hfound : ∀ item ∈ items,
        (f item).outcome = .ok (f item).results ∧ (f item).results = (g item).results ++ (h item).results := by
      intro item hitem
      obtain ⟨found, hfound, rfl⟩ := (hparts item hitem).joined (hall item hitem) (hlater item hitem)
      rw [results_eq hfound]
      exact ⟨hfound, rfl⟩
    refine ⟨items.flatMap fun item => (f item).results,
      outcome_concatMap_eq_ok_iff.mpr ⟨fun item hitem => (hfound item hitem).1, rfl⟩, ?_⟩
    rw [List.flatMap_congr fun item hitem => (hfound item hitem).2]
    exact List.flatMap_append_perm items _ _
  parts := by
    intro found hfound
    obtain ⟨hall, -⟩ := outcome_concatMap_eq_ok_iff.mp hfound
    have hboth : ∀ item ∈ items, ∃ results others,
        (g item).outcome = .ok results ∧ (h item).outcome = .ok others :=
      fun item hitem => (hparts item hitem).parts (hall item hitem)
    have hfirst : ∀ item ∈ items, ∃ results, (g item).outcome = .ok results := by
      intro item hitem
      obtain ⟨results, -, hresults, -⟩ := hboth item hitem
      exact ⟨results, hresults⟩
    have hsecond : ∀ item ∈ items, ∃ others, (h item).outcome = .ok others := by
      intro item hitem
      obtain ⟨-, others, -, hothers⟩ := hboth item hitem
      exact ⟨others, hothers⟩
    obtain ⟨results, hresults⟩ := exists_outcome_concatMap hfirst
    obtain ⟨others, hothers⟩ := exists_outcome_concatMap hsecond
    exact ⟨results, others, hresults, hothers⟩

end Run

/-- The same paths up to order; in the same order if they lead through an object type. -/
def SamePaths (kind : TypeKind) (paths found : List Path) : Prop :=
  paths.Perm found ∧ (kind = .object → paths = found)

theorem congruent_samePaths (kind : TypeKind) : Run.Congruent (SamePaths kind) where
  refl paths := ⟨.refl paths, fun _ => rfl⟩
  map f h := ⟨h.1.map f, fun hkind => congrArg (List.map f) (h.2 hkind)⟩
  append h hlater := ⟨h.1.append hlater.1, fun hkind => congrArg₂ (· ++ ·) (h.2 hkind) (hlater.2 hkind)⟩

section Joins

variable {fragments : Fragments} (system : TypeSystem) (policy : Policy) (naming? : Option FieldNaming)
  (discriminator? : Option (Name → Option String)) (below otherBelow : SelectionSet) (type : Name)

theorem Fragments.Acyclic.pathsRun_joins (hacyclic : fragments.Acyclic) :
    (pathsRun system fragments policy (below ++ otherBelow) type).Joins Eq
      (pathsRun system fragments policy below type) (pathsRun system fragments policy otherBelow type) where
  joined hfirst hsecond :=
    ⟨_, hacyclic.selectedPaths_append_eq_ok_iff.mpr ⟨_, _, hfirst, hsecond, rfl⟩, rfl⟩
  parts hfound := by
    obtain ⟨paths, others, hpaths, hothers, -⟩ := hacyclic.selectedPaths_append_eq_ok_iff.mp hfound
    exact ⟨paths, others, hpaths, hothers⟩

theorem Fragments.Acyclic.variantPaths_joins (hacyclic : fragments.Acyclic)
    (discriminator : Name → Option String) :
    (variantPaths discriminator (pathsRun system fragments policy (below ++ otherBelow)) type).Joins Eq
      (variantPaths discriminator (pathsRun system fragments policy below) type)
      (variantPaths discriminator (pathsRun system fragments policy otherBelow) type) := by
  unfold variantPaths
  cases discriminator type with
  | none => exact Run.joins_nil Run.congruent_eq
  | some segment =>
    exact (hacyclic.pathsRun_joins system policy below otherBelow type).map Run.congruent_eq (Path.join segment)

/-- The possible types are gone through once, instead of once for each part. -/
theorem Fragments.Acyclic.expandedPaths_joins (hacyclic : fragments.Acyclic) :
    (expandedPaths system discriminator? (pathsRun system fragments policy (below ++ otherBelow)) type).Joins
      List.Perm (expandedPaths system discriminator? (pathsRun system fragments policy below) type)
      (expandedPaths system discriminator? (pathsRun system fragments policy otherBelow) type) := by
  unfold expandedPaths
  cases discriminator? with
  | none => exact Run.joins_nil Run.congruent_perm
  | some discriminator =>
    exact Run.Joins.concatMap fun object _ =>
      hacyclic.variantPaths_joins system policy below otherBelow object discriminator

variable (name : Name) (definition : FieldDefinition) {kind : TypeKind}

theorem Fragments.Acyclic.subPaths_joins (hacyclic : fragments.Acyclic) :
    (subPaths system (.perType naming? discriminator?) (pathsRun system fragments policy) type
        ⟨name, definition, below ++ otherBelow⟩ kind).Joins (SamePaths kind)
      (subPaths system (.perType naming? discriminator?) (pathsRun system fragments policy) type
        ⟨name, definition, below⟩ kind)
      (subPaths system (.perType naming? discriminator?) (pathsRun system fragments policy) type
        ⟨name, definition, otherBelow⟩ kind) := by
  by_cases hobject : kind = .object
  · have hjoins := hacyclic.pathsRun_joins system policy below otherBelow definition.type.core
    refine (hjoins.mono fun h => ⟨.of_eq h, fun _ => h⟩).of_outcome_eq ?_ ?_ ?_ <;>
      rw [outcome_subPaths_perType, if_pos hobject] <;> rfl
  · have hjoins := hacyclic.expandedPaths_joins system policy discriminator? below otherBelow definition.type.core
    refine (hjoins.mono fun h => ⟨h, fun hkind => absurd hkind hobject⟩).of_outcome_eq ?_ ?_ ?_ <;>
      rw [outcome_subPaths_perType, if_neg hobject] <;> rfl

/-- The field is left out in all places or in none, since its segment does not depend on what is below it. -/
theorem Fragments.Acyclic.fieldPaths_joins (hacyclic : fragments.Acyclic)
    (hkind : system.kind? definition.type.core = some kind) (hcomposite : kind.isComposite = true)
    (hbelow : below ≠ []) (hother : otherBelow ≠ []) :
    (fieldPaths system (.perType naming? discriminator?) (pathsRun system fragments policy) type
        ⟨name, definition, below ++ otherBelow⟩).Joins (SamePaths kind)
      (fieldPaths system (.perType naming? discriminator?) (pathsRun system fragments policy) type
        ⟨name, definition, below⟩)
      (fieldPaths system (.perType naming? discriminator?) (pathsRun system fragments policy) type
        ⟨name, definition, otherBelow⟩) := by
  have hboth : below ++ otherBelow ≠ [] := List.append_ne_nil_of_left_ne_nil hbelow _
  obtain ⟨segment?, hsegment⟩ : ∃ segment?, ∀ selections,
      segmentOf system naming? type ⟨name, definition, selections⟩ = segment? :=
    ⟨segmentOf system naming? type ⟨name, definition, []⟩, fun _ => rfl⟩
  cases segment? with
  | none =>
    exact (Run.joins_nil (congruent_samePaths kind)).of_outcome_eq
      (outcome_fieldPaths_of_left_out (hsegment _)) (outcome_fieldPaths_of_left_out (hsegment _))
      (outcome_fieldPaths_of_left_out (hsegment _))
  | some segment =>
    have hjoins := (hacyclic.subPaths_joins system policy naming? discriminator? below otherBelow type name
      definition).map (congruent_samePaths kind) (Path.join segment)
    exact hjoins.of_outcome_eq (outcome_fieldPaths_of_composite (hsegment _) hkind hcomposite hboth)
      (outcome_fieldPaths_of_composite (hsegment _) hkind hcomposite hbelow)
      (outcome_fieldPaths_of_composite (hsegment _) hkind hcomposite hother)

end Joins

section Levels

variable {system : TypeSystem} {fragments : Fragments} {policy : Policy} {naming? : Option FieldNaming}
  {discriminator? : Option (Name → Option String)} {type name : Name} {definition : FieldDefinition}
  {kind : TypeKind}

/-- A field on its own has the paths that it contributes; a reserved one has none. -/
theorem Fragments.Acyclic.pathsRun_field (hacyclic : fragments.Acyclic)
    (hfield : system.field? type name = some definition) (alias? : Option Name) (arguments : List Argument)
    (directives : List Directive) (below : SelectionSet) :
    pathsRun system fragments policy [.field alias? name arguments directives below] type =
      if system.kind? type = some .object then
        if name.isReserved then pure []
        else fieldPaths system policy (pathsRun system fragments policy) type ⟨name, definition, below⟩
      else .ofExcept (.error (.unknownType type)) := by
  have hcollect : collectFields system fragments type [] [.field alias? name arguments directives below] =
      .ok (if name.isReserved then [] else [⟨name, definition, below⟩]) := by
    simp only [collectFields, hfield]
    split_ifs <;> rfl
  rw [hacyclic.pathsRun_eq, appliedFields]
  split_ifs with hobject hreserved
  · rw [hcollect, if_pos hreserved, Run.ofExcept_ok_bind, Run.concatMap_nil]
  · rw [hcollect, if_neg hreserved, Run.ofExcept_ok_bind, Run.concatMap_cons, Run.concatMap_nil]
    simp
  · rw [Run.ofExcept_error_bind]

variable {siblings : SiblingFields}

theorem Fragments.Acyclic.siblings_joins (hacyclic : fragments.Acyclic)
    (hfield : system.field? type siblings.name = some definition)
    (hkind : system.kind? definition.type.core = some kind) (hcomposite : kind.isComposite = true) :
    (pathsRun system fragments (.perType naming? discriminator?) [siblings.both] type).Joins (SamePaths kind)
      (pathsRun system fragments (.perType naming? discriminator?) [siblings.first] type)
      (pathsRun system fragments (.perType naming? discriminator?) [siblings.second] type) := by
  unfold SiblingFields.both SiblingFields.first SiblingFields.second
  simp only [hacyclic.pathsRun_field hfield]
  split_ifs
  · exact Run.joins_nil (congruent_samePaths kind)
  · exact hacyclic.fieldPaths_joins system _ naming? discriminator? _ _ type _ definition hkind hcomposite
      siblings.below_ne_nil siblings.otherBelow_ne_nil
  · exact Run.joins_error _

/-- By taking both levels apart: what they have in common has the same paths, and the fields are joined. -/
theorem Fragments.Acyclic.selectedPaths_merged_of_apart (hacyclic : fragments.Acyclic)
    (hjoins : (pathsRun system fragments (.perType naming? discriminator?) [siblings.both] type).Joins
      (SamePaths kind) (pathsRun system fragments (.perType naming? discriminator?) [siblings.first] type)
      (pathsRun system fragments (.perType naming? discriminator?) [siblings.second] type))
    {paths : List Path}
    (h : selectedPaths system fragments (.perType naming? discriminator?) siblings.apart type = .ok paths) :
    ∃ merged, selectedPaths system fragments (.perType naming? discriminator?) siblings.merged type =
        .ok merged ∧
      paths.Perm merged ∧ (siblings.between = [] → kind = .object → paths = merged) := by
  simp only [SiblingFields.apart, SiblingFields.merged, hacyclic.selectedPaths_append_eq_ok_iff] at h ⊢
  obtain ⟨_, back, ⟨_, second, ⟨_, middle, ⟨front, first, hfront, hfirst, rfl⟩, hmiddle, rfl⟩, hsecond, rfl⟩,
    hback, rfl⟩ := h
  obtain ⟨both, hboth, hperm, hsame⟩ := hjoins.joined hfirst hsecond
  refine ⟨_, ⟨_, back, ⟨_, middle, ⟨front, both, hfront, hboth, rfl⟩, hmiddle, rfl⟩, hback, rfl⟩, ?_, ?_⟩
  · have hswap : (middle ++ second).Perm (second ++ middle) := List.perm_append_comm
    have hmoved : (first ++ (middle ++ second)).Perm (first ++ second ++ middle) := by
      simpa only [List.append_assoc] using hswap.append_left first
    have hjoined := hmoved.trans (hperm.append_right middle)
    simpa only [List.append_assoc] using (hjoined.append_right back).append_left front
  · intro hadjacent hobject
    rw [hadjacent] at hmiddle
    have hbounds : system.Bounds fragments := .inl hacyclic
    obtain rfl : [] = middle :=
      Except.ok.inj ((selectedPaths_nil hbounds (kind_of_selectedPaths hbounds hmiddle)).symm.trans hmiddle)
    simp only [List.append_nil, List.append_assoc, ← hsame hobject]

theorem Fragments.Acyclic.exists_selectedPaths_apart (hacyclic : fragments.Acyclic)
    (hjoins : (pathsRun system fragments policy [siblings.both] type).Joins (SamePaths kind)
      (pathsRun system fragments policy [siblings.first] type)
      (pathsRun system fragments policy [siblings.second] type))
    {merged : List Path} (h : selectedPaths system fragments policy siblings.merged type = .ok merged) :
    ∃ paths, selectedPaths system fragments policy siblings.apart type = .ok paths := by
  simp only [SiblingFields.apart, SiblingFields.merged, hacyclic.selectedPaths_append_eq_ok_iff] at h ⊢
  obtain ⟨_, back, ⟨_, middle, ⟨front, both, hfront, hboth, rfl⟩, hmiddle, rfl⟩, hback, rfl⟩ := h
  obtain ⟨first, second, hfirst, hsecond⟩ := hjoins.parts hboth
  exact ⟨_, _, back, ⟨_, second, ⟨_, middle, ⟨front, first, hfront, hfirst, rfl⟩, hmiddle, rfl⟩, hsecond, rfl⟩,
    hback, rfl⟩

end Levels

/--
Whether two selections of one field on a level are merged beforehand makes no difference, if the field returns a
composite type and both have selections below them: path building succeeds on both levels or on none, and each path
comes up as often on the one as on the other. Below an abstract type each possible type is gone through once for each
selection of the field, so merging changes the order. If the field returns an object type and the two stand
next to each other, the order is the same as well.
-/
theorem Fragments.Acyclic.selectedPaths_siblings {fragments : Fragments} (hacyclic : fragments.Acyclic)
    (system : TypeSystem) (naming? : Option FieldNaming) (discriminator? : Option (Name → Option String))
    (type : Name) (siblings : SiblingFields) {definition : FieldDefinition}
    (hfield : system.field? type siblings.name = some definition) {kind : TypeKind}
    (hkind : system.kind? definition.type.core = some kind) (hcomposite : kind.isComposite = true) :
    ((∃ paths, selectedPaths system fragments (.perType naming? discriminator?) siblings.apart type = .ok paths) ↔
      ∃ paths, selectedPaths system fragments (.perType naming? discriminator?) siblings.merged type =
        .ok paths) ∧
    ∀ paths merged,
      selectedPaths system fragments (.perType naming? discriminator?) siblings.apart type = .ok paths →
      selectedPaths system fragments (.perType naming? discriminator?) siblings.merged type = .ok merged →
        paths.Perm merged ∧ (siblings.between = [] → kind = .object → paths = merged) := by
  have hjoins : (pathsRun system fragments (.perType naming? discriminator?) [siblings.both] type).Joins
      (SamePaths kind) (pathsRun system fragments (.perType naming? discriminator?) [siblings.first] type)
      (pathsRun system fragments (.perType naming? discriminator?) [siblings.second] type) :=
    hacyclic.siblings_joins hfield hkind hcomposite
  refine ⟨⟨?_, ?_⟩, ?_⟩
  · rintro ⟨paths, hpaths⟩
    obtain ⟨merged, hmerged, -⟩ := hacyclic.selectedPaths_merged_of_apart hjoins hpaths
    exact ⟨merged, hmerged⟩
  · rintro ⟨merged, hmerged⟩
    exact hacyclic.exists_selectedPaths_apart hjoins hmerged
  · intro paths merged hpaths hmerged
    obtain ⟨found, hfound, hsame⟩ := hacyclic.selectedPaths_merged_of_apart hjoins hpaths
    obtain rfl := Except.ok.inj (hfound.symm.trans hmerged)
    exact hsame

/-- The owner of a dog twice, the second time with a pet of the owner. -/
def Companions.owners : SiblingFields where
  name := "owner"
  before := []
  alias? := none
  arguments := []
  directives := []
  below := [.spread "Named" []]
  between := []
  otherAlias? := some "keeper"
  otherArguments := []
  otherDirectives := []
  otherBelow := [Pets.leaf "name", .field none "pet" [] [] [.spread "Kept" []]]
  behind := []
  below_ne_nil := nofun
  otherBelow_ne_nil := nofun

namespace Pets

def siblings : SiblingFields where
  name := "pet"
  before := []
  alias? := none
  arguments := []
  directives := []
  below := [.spread "Named" []]
  between := [leaf "id"]
  otherAlias? := some "companion"
  otherArguments := []
  otherDirectives := []
  otherBelow := [.inline (some "Dog") [] [leaf "breed"], leaf "name"]
  behind := []
  below_ne_nil := nofun
  otherBelow_ne_nil := nofun

/-- Merging brings the paths of each kind of animal together; those of the owners of a dog stay as they are. -/
theorem paths_of_siblings :
    (fragments.Acyclic ∧ schema.typeSystem.field? "Owner" "pet" = some (fieldOf "pet" "Animal") ∧
      schema.typeSystem.kind? "Animal" = some .interface ∧ TypeKind.interface.isComposite = true ∧
      selectedPaths schema.typeSystem fragments (.perType none (some some)) siblings.apart "Owner" =
        .ok ["pet.Dog.name", "pet.Cat.name", "id", "pet.Dog.breed", "pet.Dog.name", "pet.Cat.name"] ∧
      selectedPaths schema.typeSystem fragments (.perType none (some some)) siblings.merged "Owner" =
        .ok ["pet.Dog.name", "pet.Dog.breed", "pet.Dog.name", "pet.Cat.name", "pet.Cat.name", "id"] ∧
      ["pet.Dog.name", "pet.Cat.name", "id", "pet.Dog.breed", "pet.Dog.name", "pet.Cat.name"].Perm
        ["pet.Dog.name", "pet.Dog.breed", "pet.Dog.name", "pet.Cat.name", "pet.Cat.name", "id"]) ∧
    Companions.fragments.Acyclic ∧
      Companions.schema.typeSystem.field? "Dog" "owner" = some (fieldOf "owner" "Person") ∧
      Companions.schema.typeSystem.kind? "Person" = some .object ∧ TypeKind.object.isComposite = true ∧
      selectedPaths Companions.schema.typeSystem Companions.fragments (.perType none (some some))
        Companions.owners.apart "Dog" = .ok ["owner.name", "owner.name", "owner.pet.Dog.owner.name"] ∧
      selectedPaths Companions.schema.typeSystem Companions.fragments (.perType none (some some))
        Companions.owners.merged "Dog" = .ok ["owner.name", "owner.name", "owner.pet.Dog.owner.name"] := by
  have hpet : schema.typeSystem.field? "Owner" "pet" = some (fieldOf "pet" "Animal") := by cbv
  have hanimal : schema.typeSystem.kind? "Animal" = some .interface := by cbv
  have howner : Companions.schema.typeSystem.field? "Dog" "owner" = some (fieldOf "owner" "Person") := by cbv
  have hperson : Companions.schema.typeSystem.kind? "Person" = some .object := by cbv
  have hpaths : selectedPaths schema.typeSystem fragments (.perType none (some some)) siblings.apart "Owner" =
      .ok ["pet.Dog.name", "pet.Cat.name", "id", "pet.Dog.breed", "pet.Dog.name", "pet.Cat.name"] := by cbv
  have hmerged : selectedPaths schema.typeSystem fragments (.perType none (some some)) siblings.merged
      "Owner" =
        .ok ["pet.Dog.name", "pet.Dog.breed", "pet.Dog.name", "pet.Cat.name", "pet.Cat.name", "id"] := by cbv
  have hdog : selectedPaths Companions.schema.typeSystem Companions.fragments (.perType none (some some))
      Companions.owners.apart "Dog" = .ok ["owner.name", "owner.name", "owner.pet.Dog.owner.name"] := by cbv
  have hpets := acyclic.selectedPaths_siblings schema.typeSystem none (some some) "Owner" siblings hpet hanimal rfl
  have howners := Companions.acyclic.selectedPaths_siblings Companions.schema.typeSystem none (some some) "Dog"
    Companions.owners howner hperson rfl
  obtain ⟨found, hfound⟩ := howners.1.mp ⟨_, hdog⟩
  have hsame := (howners.2 _ _ hdog hfound).2 rfl rfl
  rw [← hsame] at hfound
  exact ⟨⟨acyclic, hpet, hanimal, rfl, hpaths, hmerged, (hpets.2 _ _ hpaths hmerged).1⟩, Companions.acyclic,
    howner, hperson, rfl, hdog, hfound⟩

end Pets

end QueryMask
