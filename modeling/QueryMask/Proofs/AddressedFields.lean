import QueryMask.Proofs.Agreement
import QueryMask.Proofs.DeclaredTypes
import QueryMask.Proofs.PathComposition
import QueryMask.Proofs.StaticFields

/-! Fields that are addressed by a response path in a valid document. The selections merged there have
paths on a type that all occurrences return, but not on every type that one of them returns. -/

namespace QueryMask

/--
On an object type that every field at a response path can return, the selections merged there have
paths: on a well-formed schema, and in a document whose root selections are valid.
-/
theorem Document.selectedPaths_of_returned {definitions : List SchemaDefinition}
    (hschema : Schema.WellFormed definitions) {document : Document}
    (hacyclic : document.fragments.Acyclic) {operation? : Option Name} {root merged : SelectionSet}
    {rootType object : Name} {path : Path} (hroot : document.rootSelections operation? = .ok root)
    (hvalid : ValidAt (Schema.ofDefinitions definitions).typeSystem document.fragments rootType root)
    (hmerged : document.selectionsAt operation? path = .ok merged)
    (hkind : (Schema.ofDefinitions definitions).kind? object = some .object)
    (hreturned : ∀ field, OccursAt (Schema.ofDefinitions definitions).typeSystem document.fragments
        (some rootType) root path.segments field →
      ∃ type, field.returns? (Schema.ofDefinitions definitions).typeSystem = some type ∧
        (Schema.ofDefinitions definitions).typeSystem.satisfies type object = true)
    (naming? : Option FieldNaming) (discriminator? : Option (Name → Option String)) :
    ∃ paths, selectedPaths (Schema.ofDefinitions definitions).typeSystem document.fragments
      (.perType naming? discriminator?) merged object = .ok paths := by
  have hkeys := Schema.nodup_keys_ofDefinitions definitions
  obtain ⟨start, found, hstart, hfound, rfl⟩ := exists_rootSelections hmerged
  have hsame : start = root := Except.ok.inj (hstart.symm.trans hroot)
  subst hsame
  have hparts : ∀ set ∈ found, selectedPaths (Schema.ofDefinitions definitions).typeSystem
      document.fragments (.perType naming? discriminator?) set object =
        .ok (pathsRun (Schema.ofDefinitions definitions).typeSystem document.fragments
          (.perType naming? discriminator?) set object).results := by
    -- a selection set found at the path lies below a field that occurs there, at a type it is valid on
    intro set hset
    obtain ⟨first, hfirst, hoccurs⟩ := exists_occursAt
      (Schema.ofDefinitions definitions).typeSystem (Path.segments_ne_nil path) hfound hset
    rw [List.mem_singleton.mp hfirst] at hoccurs
    obtain ⟨field, hfield, rfl⟩ := hoccurs (some rootType)
    obtain ⟨type, hreturns, hsatisfies⟩ := hreturned field hfield
    have hbelow := hfield.validAt hvalid hreturns
    obtain ⟨fields, hcollect, hsafe⟩ :=
      hbelow.collectFields_ok hschema hacyclic naming? discriminator? hkind hsatisfies
    have hfields := appliedFields_eq_ok_iff.mpr ⟨hkind, hcollect⟩
    obtain ⟨paths, hpaths⟩ := selectedPaths_ok_of_safe hkeys hacyclic hfields hsafe
    rw [Run.results_eq hpaths]
    exact hpaths
  exact ⟨_, selectedPaths_flatten (.inl hacyclic) hkind hparts⟩

namespace Pets

theorem acyclic_twice : twice.fragments.Acyclic := by
  refine Fragments.acyclic_of_rank (fun _ => 0) fun outer inner ⟨fragment, hfind, hspread⟩ => ?_
  have hmem := Fragments.mem_of_find? hfind
  simp only [twice, fragments, List.mem_cons, Prod.mk.injEq, List.not_mem_nil, or_false] at hmem
  rcases hmem with ⟨-, rfl⟩ | ⟨-, rfl⟩ <;>
    simp [leaf, SelectionSet.spreads, Selection.spreads] at hspread

/-- Dogs are pets, whether their owner selects them in the fragment or not. -/
theorem paths_of_pet :
    ∃ root, twice.rootSelections none = .ok root ∧
      ValidAt schema.typeSystem twice.fragments "Owner" root ∧
      twice.selectionsAt none "pet" = .ok [leaf "name", .spread "Named" []] ∧
      schema.kind? "Dog" = some .object ∧
      (∀ field, OccursAt schema.typeSystem twice.fragments (some "Owner") root
          (Path.segments "pet") field →
        ∃ type, field.returns? schema.typeSystem = some type ∧
          schema.typeSystem.satisfies type "Dog" = true) ∧
      ∃ paths, selectedPaths schema.typeSystem twice.fragments (.perType none (some some))
        [leaf "name", .spread "Named" []] "Dog" = .ok paths := by
  have hroot : twice.rootSelections none =
      .ok [leaf "id", .spread "Mine" [], .field none "pet" [] [] [.spread "Named" []]] := rfl
  have hid : schema.typeSystem.field? "Owner" "id" = some (fieldOf "id" "ID") := rfl
  have hpet : schema.typeSystem.field? "Owner" "pet" = some (fieldOf "pet" "Animal") := rfl
  have hname : schema.typeSystem.field? "Animal" "name" = some (fieldOf "name" "String") := rfl
  have hmine : twice.fragments.find? "Mine" =
      some ⟨"Owner", [], [.field none "pet" [] [] [leaf "name"]]⟩ := rfl
  have hnamed : twice.fragments.find? "Named" = some ⟨"Animal", [], [leaf "name"]⟩ := rfl
  have hvalid : ValidAt schema.typeSystem twice.fragments "Owner"
      [leaf "id", .spread "Mine" [], .field none "pet" [] [] [.spread "Named" []]] := by
    refine .field hid .nil (.spread hmine (.field hpet (.field hname .nil .nil) .nil) ?_)
    exact .field hpet (.spread hnamed (.field hname .nil .nil) .nil) .nil
  have hmerged : twice.selectionsAt none "pet" = .ok [leaf "name", .spread "Named" []] := by cbv
  have hkind : schema.kind? "Dog" = some .object := rfl
  have hreturned : ∀ field, OccursAt schema.typeSystem twice.fragments (some "Owner")
      [leaf "id", .spread "Mine" [], .field none "pet" [] [] [.spread "Named" []]]
      (Path.segments "pet") field →
      ∃ type, field.returns? schema.typeSystem = some type ∧
        schema.typeSystem.satisfies type "Dog" = true := by
    intro field hfield
    have hsegments : Path.segments "pet" = ["pet"] := rfl
    rw [hsegments, occursAt_cons_iff] at hfield
    obtain ⟨first, hselected, hkey, ⟨-, rfl⟩ | hbelow⟩ := hfield
    · refine ⟨"Animal", ?_, rfl⟩
      simp only [leaf, selectedIn_field_iff, selectedIn_spread_iff, hmine, Option.some.injEq,
        exists_eq_left', not_selectedIn_nil, or_false] at hselected
      rcases hselected with rfl | rfl | rfl
      · simp [responseKey] at hkey
      · rfl
      · rfl
    · exact absurd hbelow not_occursAt_nil
  have hpaths := Document.selectedPaths_of_returned wellFormed acyclic_twice hroot hvalid hmerged hkind
    hreturned none (some some)
  exact ⟨_, hroot, hvalid, hmerged, hkind, hreturned, hpaths⟩

end Pets

def TypeRef.sameWrappers : TypeRef → TypeRef → Bool
  | .named _ leftNonNull, .named _ rightNonNull => leftNonNull == rightNonNull
  | .list left leftNonNull, .list right rightNonNull =>
    leftNonNull == rightNonNull && left.sameWrappers right
  | .named _ _, .list _ _ | .list _ _, .named _ _ => false

section Mergeable

variable (system : TypeSystem) (fragments : Fragments)

/-- What two fields select between them, each on the type that it returns. -/
def SelectedBelow (left right field : StaticField) : Prop :=
  SelectedIn fragments (left.returns? system) left.selections field ∨
    SelectedIn fragments (right.returns? system) right.selections field

/-- Two fields whose values, on whatever types, can stand under one key of a response. -/
inductive SameShape : StaticField → StaticField → Prop where
  | leaf {left right type} (hleft : left.type? system = some type)
      (hright : right.type? system = some type) (hkind : system.kind? type.core = some .leaf) :
      SameShape left right
  | composite {left right leftType rightType} (hleft : left.type? system = some leftType)
      (hright : right.type? system = some rightType)
      (hleftKind : (system.kind? leftType.core).any TypeKind.isComposite = true)
      (hrightKind : (system.kind? rightType.core).any TypeKind.isComposite = true)
      (hwrappers : leftType.sameWrappers rightType = true)
      (hbelow : ∀ first second, SelectedBelow system fragments left right first →
        SelectedBelow system fragments left right second → first.key = second.key →
        SameShape first second) :
      SameShape left right
  | introspection {left right} (hleft : left.type? system = none) (hright : right.type? system = none)
      (hname : left.name = right.name)
      (hbelow : ∀ first second, SelectedBelow system fragments left right first →
        SelectedBelow system fragments left right second → first.key = second.key →
        SameShape first second) :
      SameShape left right

/-- Two fields that one value may have, since they are not on different object types. -/
def StaticField.MayMeet (left right : StaticField) : Prop :=
  left.parent? = right.parent? ∨ left.parent?.bind system.kind? ≠ some .object ∨
    right.parent?.bind system.kind? ≠ some .object

/--
Fields that can merge: under each key they have one shape, and those that may meet are the same field
with the same arguments, and can merge below.
-/
inductive CanMerge : (StaticField → Prop) → Prop where
  | intro {fields}
      (hshape : ∀ left right, fields left → fields right → left.key = right.key →
        SameShape system fragments left right)
      (hname : ∀ left right, fields left → fields right → left.key = right.key →
        left.MayMeet system right → left.name = right.name)
      (harguments : ∀ left right, fields left → fields right → left.key = right.key →
        left.MayMeet system right → ∀ argument, argument ∈ left.arguments ↔ argument ∈ right.arguments)
      (hbelow : ∀ left right, fields left → fields right → left.key = right.key →
        left.MayMeet system right → CanMerge (SelectedBelow system fragments left right)) :
      CanMerge fields

variable {system fragments}

/-- Where no two fields share a key it is enough that each can merge with itself. -/
theorem CanMerge.of_injective {fields : StaticField → Prop}
    (hkey : ∀ left right, fields left → fields right → left.key = right.key → left = right)
    (hshape : ∀ field, fields field → SameShape system fragments field field)
    (hbelow : ∀ field, fields field →
      CanMerge system fragments (SelectedBelow system fragments field field)) :
    CanMerge system fragments fields := by
  refine .intro ?_ ?_ ?_ ?_ <;> intro left right hleft hright hsame
  · obtain rfl := hkey left right hleft hright hsame
    exact hshape left hleft
  · intro _
    rw [hkey left right hleft hright hsame]
  · intro _ argument
    rw [hkey left right hleft hright hsame]
  · intro _
    obtain rfl := hkey left right hleft hright hsame
    exact hbelow left hleft

end Mergeable

namespace Schema

/-- Without interfaces only kinds and return types have to be right. -/
theorem WellFormed.of_no_interfaces {definitions : List SchemaDefinition}
    (h : ∀ definition, .type definition ∈ definitions →
      (ofDefinitions definitions).kind? definition.name = some definition.body.kind ∧
      definition.body.implements = [] ∧
      ∀ field ∈ definition.body.fields,
        ((ofDefinitions definitions).kind? field.type.core).isSome = true) :
    WellFormed definitions := by
  have hnone : ∀ name interface, ¬ (ofDefinitions definitions).Implements name interface := by
    intro name interface hlists
    obtain ⟨body, hbody, hinterface⟩ := implements_iff.mp hlists
    obtain ⟨definition, hmem, -, rfl⟩ := mem_bodiesOf_iff.mp hbody
    simp [(h definition hmem).2.1] at hinterface
  refine ⟨?_, ?_, ?_, ?_, ?_⟩
  · intro name body hbody
    obtain ⟨definition, hmem, rfl, rfl⟩ := mem_bodiesOf_iff.mp hbody
    exact (h definition hmem).1
  · intro type name field hfield
    rw [field?_ofDefinitions] at hfield
    have hdeclared := List.mem_of_mem_filter (List.mem_of_getLast? hfield)
    obtain ⟨body, hbody, hmem⟩ := List.mem_flatMap.mp hdeclared
    obtain ⟨definition, hdefinition, -, rfl⟩ := mem_bodiesOf_iff.mp hbody
    exact (h definition hdefinition).2.2 field hmem
  · exact fun name interface hlists => absurd hlists (hnone name interface)
  · exact fun name interface _ _ hlists => absurd hlists (hnone name interface)
  · exact fun name middle _ hlists => absurd hlists (hnone name middle)

end Schema

namespace Keepers

open Pets (fieldOf typeOf leaf)

def definitions : List SchemaDefinition :=
  [typeOf "Query" (.object [] [fieldOf "pet" "Pet"]), typeOf "Pet" (.union ["Dog", "Cat"]),
   typeOf "Dog" (.object [] [fieldOf "keeper" "Person"]),
   typeOf "Cat" (.object [] [fieldOf "keeper" "Robot"]),
   typeOf "Person" (.object [] [fieldOf "name" "String"]),
   typeOf "Robot" (.object [] [fieldOf "serial" "String"])]

def schema : Schema := .ofDefinitions definitions

/-- Dogs are kept by persons and cats by robots. -/
def pets : SelectionSet :=
  [.inline (some "Dog") [] [.field none "keeper" [] [] [leaf "name"]],
   .inline (some "Cat") [] [.field none "keeper" [] [] [leaf "serial"]]]

def root : SelectionSet := [.field none "pet" [] [] pets]

def document : Document := ⟨.anonymous ⟨.query, [], [], root⟩, []⟩

theorem wellFormed : Schema.WellFormed definitions := by
  refine Schema.WellFormed.of_no_interfaces fun definition hmem => ?_
  simp only [definitions, typeOf, List.mem_cons, SchemaDefinition.type.injEq, List.not_mem_nil,
    or_false] at hmem
  rcases hmem with rfl | rfl | rfl | rfl | rfl | rfl <;>
    refine ⟨rfl, rfl, ?_⟩ <;>
    simp only [TypeBody.fields, List.forall_mem_cons, List.not_mem_nil, false_imp_iff, implies_true,
      and_true] <;>
    rfl

theorem root_valid : ValidAt schema.typeSystem document.fragments "Query" root := by
  have hpet : schema.typeSystem.field? "Query" "pet" = some (fieldOf "pet" "Pet") := rfl
  have hdog : schema.typeSystem.field? "Dog" "keeper" = some (fieldOf "keeper" "Person") := rfl
  have hcat : schema.typeSystem.field? "Cat" "keeper" = some (fieldOf "keeper" "Robot") := rfl
  have hname : schema.typeSystem.field? "Person" "name" = some (fieldOf "name" "String") := rfl
  have hserial : schema.typeSystem.field? "Robot" "serial" = some (fieldOf "serial" "String") := rfl
  refine .field hpet (.inline ?_ (.inline ?_ .nil)) .nil
  · exact .field hdog (.field hname .nil .nil) .nil
  · exact .field hcat (.field hserial .nil .nil) .nil

theorem acyclic : document.fragments.Acyclic := Fragments.acyclic_nil

def pet : StaticField := ⟨some "Query", "pet", "pet", [], pets⟩

def keptDog : StaticField := ⟨some "Dog", "keeper", "keeper", [], [leaf "name"]⟩

def keptCat : StaticField := ⟨some "Cat", "keeper", "keeper", [], [leaf "serial"]⟩

def personName : StaticField := ⟨some "Person", "name", "name", [], []⟩

def robotSerial : StaticField := ⟨some "Robot", "serial", "serial", [], []⟩

section Levels

variable {field left right : StaticField}

theorem selectedIn_root_iff :
    SelectedIn document.fragments (some "Query") root field ↔ field = pet := by
  simp [root, pet, selectedIn_field_iff, not_selectedIn_nil, responseKey]

theorem selectedIn_pet_iff :
    SelectedIn document.fragments (pet.returns? schema.typeSystem) pet.selections field ↔
      field = keptDog ∨ field = keptCat := by
  have hreturns : pet.returns? schema.typeSystem = some "Pet" := rfl
  rw [hreturns]
  simp [pet, pets, keptDog, keptCat, selectedIn_inline_iff, selectedIn_field_iff,
    not_selectedIn_nil, responseKey]

theorem selectedIn_keptDog_iff :
    SelectedIn document.fragments (keptDog.returns? schema.typeSystem) keptDog.selections field ↔
      field = personName := by
  have hreturns : keptDog.returns? schema.typeSystem = some "Person" := rfl
  rw [hreturns]
  simp [keptDog, personName, leaf, selectedIn_field_iff, not_selectedIn_nil, responseKey]

theorem selectedIn_keptCat_iff :
    SelectedIn document.fragments (keptCat.returns? schema.typeSystem) keptCat.selections field ↔
      field = robotSerial := by
  have hreturns : keptCat.returns? schema.typeSystem = some "Robot" := rfl
  rw [hreturns]
  simp [keptCat, robotSerial, leaf, selectedIn_field_iff, not_selectedIn_nil, responseKey]

theorem leaf_below (hleft : left = keptDog ∨ left = keptCat) (hright : right = keptDog ∨ right = keptCat)
    (h : SelectedBelow schema.typeSystem document.fragments left right field) :
    field = personName ∨ field = robotSerial := by
  rcases h with h | h
  · rcases hleft with rfl | rfl
    · exact .inl (selectedIn_keptDog_iff.mp h)
    · exact .inr (selectedIn_keptCat_iff.mp h)
  · rcases hright with rfl | rfl
    · exact .inl (selectedIn_keptDog_iff.mp h)
    · exact .inr (selectedIn_keptCat_iff.mp h)

theorem leaf_eq (hleft : left = personName ∨ left = robotSerial)
    (hright : right = personName ∨ right = robotSerial) (hkey : left.key = right.key) : left = right := by
  rcases hleft with rfl | rfl <;> rcases hright with rfl | rfl
  · rfl
  · simp [personName, robotSerial] at hkey
  · simp [personName, robotSerial] at hkey
  · rfl

theorem sameShape_leaf (h : field = personName ∨ field = robotSerial) :
    SameShape schema.typeSystem document.fragments field field := by
  have htype : field.type? schema.typeSystem = some (.named "String" false) := by
    rcases h with rfl | rfl <;> rfl
  exact .leaf htype htype rfl

theorem sameShape_keepers (hleft : left = keptDog ∨ left = keptCat)
    (hright : right = keptDog ∨ right = keptCat) :
    SameShape schema.typeSystem document.fragments left right := by
  have hdog : keptDog.type? schema.typeSystem = some (.named "Person" false) := rfl
  have hcat : keptCat.type? schema.typeSystem = some (.named "Robot" false) := rfl
  have hperson : schema.typeSystem.kind? "Person" = some .object := rfl
  have hrobot : schema.typeSystem.kind? "Robot" = some .object := rfl
  have hbelow : ∀ first second, SelectedBelow schema.typeSystem document.fragments left right first →
      SelectedBelow schema.typeSystem document.fragments left right second → first.key = second.key →
      SameShape schema.typeSystem document.fragments first second := by
    intro first second hfirst hsecond hkey
    have hfirst := leaf_below hleft hright hfirst
    have hsecond := leaf_below hleft hright hsecond
    obtain rfl := leaf_eq hfirst hsecond hkey
    exact sameShape_leaf hfirst
  have htype : ∀ {field}, field = keptDog ∨ field = keptCat → ∃ name,
      field.type? schema.typeSystem = some (.named name false) ∧
        (schema.typeSystem.kind? name).any TypeKind.isComposite = true := by
    rintro field (rfl | rfl)
    · exact ⟨"Person", hdog, by rw [hperson]; rfl⟩
    · exact ⟨"Robot", hcat, by rw [hrobot]; rfl⟩
  obtain ⟨leftName, hleftType, hleftKind⟩ := htype hleft
  obtain ⟨rightName, hrightType, hrightKind⟩ := htype hright
  exact .composite hleftType hrightType hleftKind hrightKind rfl hbelow

theorem canMerge_leaves {fields : StaticField → Prop}
    (h : ∀ field, fields field → field = personName ∨ field = robotSerial) :
    CanMerge schema.typeSystem document.fragments fields := by
  refine .of_injective ?_ ?_ ?_
  · exact fun left right hleft hright => leaf_eq (h left hleft) (h right hright)
  · exact fun field hfield => sameShape_leaf (h field hfield)
  · intro field hfield
    have hnone : ∀ below, ¬ SelectedBelow schema.typeSystem document.fragments field field below := by
      rcases h field hfield with rfl | rfl <;>
        simp [SelectedBelow, personName, robotSerial, not_selectedIn_nil]
    exact .of_injective (fun left _ hleft => absurd hleft (hnone left))
      (fun below hbelow => absurd hbelow (hnone below)) fun below hbelow => absurd hbelow (hnone below)

theorem canMerge_keepers {fields : StaticField → Prop}
    (h : ∀ field, fields field → field = keptDog ∨ field = keptCat) :
    CanMerge schema.typeSystem document.fragments fields := by
  have hsame : ∀ field, fields field → field.name = "keeper" ∧ field.arguments = [] := by
    intro field hfield
    rcases h field hfield with rfl | rfl <;> exact ⟨rfl, rfl⟩
  -- the dog's and the cat's keeper cannot meet, but each meets itself
  refine .intro ?_ ?_ ?_ ?_ <;> intro left right hleft hright _
  · exact sameShape_keepers (h left hleft) (h right hright)
  · intro _
    rw [(hsame left hleft).1, (hsame right hright).1]
  · intro _ argument
    rw [(hsame left hleft).2, (hsame right hright).2]
  · exact fun _ => canMerge_leaves fun _ => leaf_below (h left hleft) (h right hright)

end Levels

theorem root_canMerge : CanMerge schema.typeSystem document.fragments
    (SelectedIn document.fragments (some "Query") root) := by
  have hbelow : ∀ field, SelectedBelow schema.typeSystem document.fragments pet pet field →
      field = keptDog ∨ field = keptCat := by
    intro field hfield
    exact hfield.elim selectedIn_pet_iff.mp selectedIn_pet_iff.mp
  have htype : pet.type? schema.typeSystem = some (.named "Pet" false) := rfl
  have hkind : schema.typeSystem.kind? "Pet" = some .union := rfl
  have hcomposite : (schema.typeSystem.kind? "Pet").any TypeKind.isComposite = true := by
    rw [hkind]
    rfl
  refine .of_injective ?_ ?_ ?_
  · intro left right hleft hright _
    rw [selectedIn_root_iff.mp hleft, selectedIn_root_iff.mp hright]
  · intro field hfield
    obtain rfl := selectedIn_root_iff.mp hfield
    refine .composite htype htype hcomposite hcomposite rfl fun first second hfirst hsecond _ => ?_
    exact sameShape_keepers (hbelow first hfirst) (hbelow second hsecond)
  · intro field hfield
    obtain rfl := selectedIn_root_iff.mp hfield
    exact canMerge_keepers hbelow

theorem paths_of_root :
    selectedPaths schema.typeSystem document.fragments (.perType none (some some)) root "Query" =
      .ok ["pet.Dog.keeper.name", "pet.Cat.keeper.serial"] := by
  cbv

/--
Validity is not enough for a type that only one of the fields at a path returns. A person keeps the
dog, but what is merged also has the selections for the robot that keeps the cat; from the root, where
type conditions are evaluated, both have their paths.
-/
theorem merged_fails :
    Schema.WellFormed definitions ∧ document.fragments.Acyclic ∧ document.rootSelections none = .ok root ∧
      ValidAt schema.typeSystem document.fragments "Query" root ∧
      CanMerge schema.typeSystem document.fragments
        (SelectedIn document.fragments (some "Query") root) ∧
      (∃ field, OccursAt schema.typeSystem document.fragments (some "Query") root
          (Path.segments "pet.keeper") field ∧ field.returns? schema.typeSystem = some "Person") ∧
      schema.kind? "Person" = some .object ∧
      document.selectionsAt none "pet.keeper" = .ok [leaf "name", leaf "serial"] ∧
      (∀ naming? discriminator?, selectedPaths schema.typeSystem document.fragments
        (.perType naming? discriminator?) [leaf "name", leaf "serial"] "Person" =
          .error (.unknownField "Person" "serial")) ∧
      selectedPaths schema.typeSystem document.fragments (.perType none (some some)) root "Query" =
        .ok ["pet.Dog.keeper.name", "pet.Cat.keeper.serial"] := by
  have hoccurs : OccursAt schema.typeSystem document.fragments (some "Query") root
      (Path.segments "pet.keeper") keptDog := by
    have hsegments : Path.segments "pet.keeper" = [pet.key, keptDog.key] := rfl
    rw [hsegments]
    exact .deeper (selectedIn_root_iff.mpr rfl) (.last (selectedIn_pet_iff.mpr (.inl rfl)))
  have hreturns : keptDog.returns? schema.typeSystem = some "Person" := rfl
  have hkind : schema.kind? "Person" = some .object := rfl
  have hmerged : document.selectionsAt none "pet.keeper" = .ok [leaf "name", leaf "serial"] := by cbv
  have hfields : appliedFields schema.typeSystem document.fragments "Person"
      [leaf "name", leaf "serial"] = .error (.unknownField "Person" "serial") := by cbv
  refine ⟨wellFormed, acyclic, rfl, root_valid, root_canMerge, ⟨keptDog, hoccurs, hreturns⟩, hkind,
    hmerged, fun naming? discriminator? => ?_, paths_of_root⟩
  rw [selectedPaths, acyclic.pathsRun_eq, Run.outcome_bind, Run.outcome_ofExcept, hfields]
  rfl

end Keepers

end QueryMask
