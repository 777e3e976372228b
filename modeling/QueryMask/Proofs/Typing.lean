import QueryMask.Proofs.Declarations
import QueryMask.Proofs.Depth
import Mathlib

/-! Selections that are valid by static typing, on well-formed schemas: path building does not fail on them. -/

namespace QueryMask

namespace Schema

/-- A return type that may stand for the one an interface declares. -/
def Covariant (schema : Schema) (own declared : Name) : Prop :=
  own = declared ∨ own ∈ schema.possibleTypes declared ∨
    (schema.kind? own = some .interface ∧ schema.Implements own declared)

/--
Definitions that give every name one kind and every field a known return type, list interfaces only
with their fields, and with the interfaces that these list in turn.
-/
structure WellFormed (definitions : List SchemaDefinition) : Prop where
  one_kind : ∀ name, ∀ body ∈ bodiesOf definitions name,
    (ofDefinitions definitions).kind? name = some body.kind
  returns_known : ∀ type field definition,
    (ofDefinitions definitions).field? type field = some definition →
    ((ofDefinitions definitions).kind? definition.type.core).isSome = true
  lists_interfaces : ∀ name interface, (ofDefinitions definitions).Implements name interface →
    (ofDefinitions definitions).kind? interface = some .interface
  has_fields : ∀ name interface field declared,
    (ofDefinitions definitions).Implements name interface →
    (ofDefinitions definitions).field? interface field = some declared →
    ∃ own, (ofDefinitions definitions).field? name field = some own ∧
      (ofDefinitions definitions).Covariant own.type.core declared.type.core
  transitive : ∀ name middle interface, (ofDefinitions definitions).Implements name middle →
    (ofDefinitions definitions).Implements middle interface →
    (ofDefinitions definitions).Implements name interface

section WellFormed

variable {definitions : List SchemaDefinition} {name object own declared : Name}

theorem WellFormed.kind_of_field (hschema : WellFormed definitions) {field : Name}
    {definition : FieldDefinition}
    (h : (ofDefinitions definitions).field? name field = some definition) :
    (ofDefinitions definitions).kind? name = some .object ∨
      (ofDefinitions definitions).kind? name = some .interface := by
  obtain ⟨entry, hentry, hfield⟩ := Option.bind_eq_some_iff.mp h
  rw [entry?_ofDefinitions] at hentry
  obtain ⟨kind, -, rfl⟩ := Option.map_eq_some_iff.mp hentry
  have hmem : definition ∈ (TypeEntry.ofBodies (bodiesOf definitions name) kind).fields := by
    simpa using List.mem_of_find?_eq_some hfield
  obtain ⟨body, hbody, hdeclares⟩ := List.mem_flatMap.mp hmem
  rw [hschema.one_kind name body hbody]
  exact (TypeBody.kind_of_fields hdeclares).imp (congrArg some) (congrArg some)

/-- An object type has the fields of the types that it satisfies, with return types that may stand for theirs. -/
theorem WellFormed.field_of_satisfies (hschema : WellFormed definitions) {field : Name}
    {definition : FieldDefinition}
    (hsatisfies : (ofDefinitions definitions).typeSystem.satisfies name object = true)
    (hfield : (ofDefinitions definitions).field? name field = some definition) :
    ∃ own, (ofDefinitions definitions).field? object field = some own ∧
      (ofDefinitions definitions).Covariant own.type.core definition.type.core := by
  have hkeys := nodup_keys_ofDefinitions definitions
  rcases (satisfies_iff hkeys).mp hsatisfies with rfl | hpossible
  · exact ⟨definition, hfield, .inl rfl⟩
  · have habstract := (kinds_of_mem_possibleTypes hkeys hpossible).1
    rcases hschema.kind_of_field hfield with hobject | hinterface
    · rw [hobject] at habstract
      simp [TypeKind.isAbstract] at habstract
    · have himplements := ((mem_possibleTypes_interface_iff hkeys hinterface).mp hpossible).2
      exact hschema.has_fields object name field definition himplements hfield

/-- Whatever satisfies a type satisfies the types that it may stand for. -/
theorem WellFormed.satisfies_of_covariant (hschema : WellFormed definitions)
    (hcovariant : (ofDefinitions definitions).Covariant own declared)
    (hkind : (ofDefinitions definitions).kind? object = some .object)
    (hsatisfies : (ofDefinitions definitions).typeSystem.satisfies own object = true) :
    (ofDefinitions definitions).typeSystem.satisfies declared object = true := by
  have hkeys := nodup_keys_ofDefinitions definitions
  rw [satisfies_iff hkeys] at hsatisfies ⊢
  rcases hcovariant with rfl | hpossible | ⟨hinterface, himplements⟩
  · exact hsatisfies
  · have hown := (kinds_of_mem_possibleTypes hkeys hpossible).2
    rcases hsatisfies with rfl | hobject
    · exact .inr hpossible
    · have habstract := (kinds_of_mem_possibleTypes hkeys hobject).1
      rw [hown] at habstract
      simp [TypeKind.isAbstract] at habstract
  · rcases hsatisfies with rfl | hobject
    · simp [hinterface] at hkind
    · have hdeclared := hschema.lists_interfaces own declared himplements
      have hlists := ((mem_possibleTypes_interface_iff hkeys hinterface).mp hobject).2
      exact .inr ((mem_possibleTypes_interface_iff hkeys hdeclared).mpr
        ⟨hkind, hschema.transitive object own declared hlists himplements⟩)

end WellFormed

end Schema

/--
Selections that are valid by static typing at a type: the fields are defined on it, the selections
below a field are valid at the return type, and those of a fragment at its type condition.
-/
inductive ValidAt (system : TypeSystem) (fragments : Fragments) : Name → SelectionSet → Prop where
  | nil {parent} : ValidAt system fragments parent []
  | reserved {parent alias? name arguments directives selections rest}
      (hname : name.isReserved = true) (hrest : ValidAt system fragments parent rest) :
      ValidAt system fragments parent (.field alias? name arguments directives selections :: rest)
  | field {parent alias? name arguments directives selections rest definition}
      (hfield : system.field? parent name = some definition)
      (hbelow : ValidAt system fragments definition.type.core selections)
      (hrest : ValidAt system fragments parent rest) :
      ValidAt system fragments parent (.field alias? name arguments directives selections :: rest)
  | spread {parent name directives fragment rest} (hfind : fragments.find? name = some fragment)
      (hbody : ValidAt system fragments fragment.condition fragment.selections)
      (hrest : ValidAt system fragments parent rest) :
      ValidAt system fragments parent (.spread name directives :: rest)
  | inline {parent condition? directives selections rest}
      (hbody : ValidAt system fragments (condition?.getD parent) selections)
      (hrest : ValidAt system fragments parent rest) :
      ValidAt system fragments parent (.inline condition? directives selections :: rest)

/-- A field below which paths can be built, whatever object type stands for its return type. -/
def AppliedField.Safe (system : TypeSystem) (fragments : Fragments) (policy : Policy)
    (field : AppliedField) : Prop :=
  (system.kind? field.returnType).isSome = true ∧
    ∀ object, system.kind? object = some .object →
      system.satisfies field.returnType object = true →
        ∃ paths, selectedPaths system fragments policy field.selections object = .ok paths

section Safe

variable {schema : Schema} {fragments : Fragments} {naming? : Option FieldNaming}
  {discriminator? : Option (Name → Option String)}

theorem AppliedField.Safe.fieldPaths_ok {field : AppliedField} (hkeys : (schema.types.map (·.1)).Nodup)
    (h : field.Safe schema.typeSystem fragments (.perType naming? discriminator?)) (parent : Name) :
    ∃ paths, (fieldPaths schema.typeSystem (.perType naming? discriminator?)
      (pathsRun schema.typeSystem fragments (.perType naming? discriminator?)) parent field).outcome =
        .ok paths := by
  obtain ⟨hknown, hbelow⟩ := h
  obtain ⟨kind, hkind⟩ := Option.isSome_iff_exists.mp hknown
  cases hsegment : segmentOf schema.typeSystem naming? parent field with
  | none => exact ⟨[], outcome_fieldPaths_eq_ok_iff.mpr (.inl ⟨hsegment, rfl⟩)⟩
  | some segment =>
    by_cases hleaf : kind.isComposite = false ∨ field.selections = []
    · exact ⟨[segment], outcome_fieldPaths_eq_ok_iff.mpr
        (.inr ⟨segment, kind, hsegment, hkind, .inl ⟨hleaf, rfl⟩⟩)⟩
    · obtain ⟨hcomposite, hne⟩ := not_or.mp hleaf
      have hsub : ∃ below, (subPaths schema.typeSystem (.perType naming? discriminator?)
          (pathsRun schema.typeSystem fragments (.perType naming? discriminator?)) parent field
            kind).outcome = .ok below := by
        rw [subPaths_perType]
        split_ifs with hobject
        · exact hbelow _ (hobject ▸ hkind) ((Schema.satisfies_iff hkeys).mpr (.inl rfl))
        · cases discriminator? with
          | none => exact ⟨[], rfl⟩
          | some discriminator =>
            simp only [Option.elim_some]
            rw [Run.bind_eq_of_ok _ rfl]
            refine Run.exists_outcome_concatMap fun object hpossible => ?_
            unfold variantPaths
            cases discriminator object with
            | none => exact ⟨[], rfl⟩
            | some text =>
              have hobjectKind := (Schema.kinds_of_mem_possibleTypes hkeys hpossible).2
              obtain ⟨paths, hpaths⟩ := hbelow object hobjectKind
                ((Schema.satisfies_iff hkeys).mpr (.inr hpossible))
              exact ⟨_, Run.outcome_bind_pure_eq_ok_iff.mpr ⟨paths, hpaths, rfl⟩⟩
      obtain ⟨below, hrun⟩ := hsub
      exact ⟨_, outcome_fieldPaths_eq_ok_iff.mpr (.inr ⟨segment, kind, hsegment, hkind,
        .inr ⟨by simpa using hcomposite, hne, below, hrun, rfl⟩⟩)⟩

theorem selectedPaths_ok_of_safe (hkeys : (schema.types.map (·.1)).Nodup)
    (hacyclic : fragments.Acyclic) {selections : SelectionSet} {object : Name}
    {fields : List AppliedField}
    (hfields : appliedFields schema.typeSystem fragments object selections = .ok fields)
    (hsafe : ∀ field ∈ fields, field.Safe schema.typeSystem fragments (.perType naming? discriminator?)) :
    ∃ paths, selectedPaths schema.typeSystem fragments (.perType naming? discriminator?) selections
      object = .ok paths := by
  unfold selectedPaths
  rw [hacyclic.pathsRun_eq, Run.outcome_bind, Run.outcome_ofExcept, hfields]
  exact Run.exists_outcome_concatMap fun field hfield => (hsafe field hfield).fieldPaths_ok hkeys object

end Safe

/--
Static typing is an invariant: on an object type that satisfies the type they are valid at, the
selections give fields, and below these the same holds again.
-/
theorem ValidAt.collectFields_ok {definitions : List SchemaDefinition}
    (hschema : Schema.WellFormed definitions) {fragments : Fragments} (hacyclic : fragments.Acyclic)
    (naming? : Option FieldNaming) (discriminator? : Option (Name → Option String))
    {parent object : Name} {selections : SelectionSet}
    (hvalid : ValidAt (Schema.ofDefinitions definitions).typeSystem fragments parent selections)
    (hkind : (Schema.ofDefinitions definitions).kind? object = some .object)
    (hsatisfies : (Schema.ofDefinitions definitions).typeSystem.satisfies parent object = true) :
    ∃ fields, collectFields (Schema.ofDefinitions definitions).typeSystem fragments object []
        selections = .ok fields ∧
      ∀ field ∈ fields, field.Safe (Schema.ofDefinitions definitions).typeSystem fragments
        (.perType naming? discriminator?) := by
  induction hvalid generalizing object with
  | nil => exact ⟨[], collectFields_nil, by simp⟩
  | reserved hname _ ihrest =>
    obtain ⟨later, hlater, hsafe⟩ := ihrest hkind hsatisfies
    exact ⟨later, by rw [collectFields, if_pos hname, hlater], hsafe⟩
  | @field _ _ name _ _ selections _ definition hfield _ _ ihbelow ihrest =>
    obtain ⟨later, hlater, hsafe⟩ := ihrest hkind hsatisfies
    by_cases hname : name.isReserved = true
    · exact ⟨later, by rw [collectFields, if_pos hname, hlater], hsafe⟩
    · -- the selections below are valid at the declared type, but evaluated below the own one
      obtain ⟨own, hown, hcovariant⟩ := hschema.field_of_satisfies hsatisfies hfield
      have hown' : (Schema.ofDefinitions definitions).typeSystem.field? object name = some own := hown
      refine ⟨⟨name, own, selections⟩ :: later, ?_, ?_⟩
      · rw [collectFields_cons, firstFields, if_neg hname, hown', hlater]
        rfl
      · refine List.forall_mem_cons.mpr ⟨⟨hschema.returns_known _ _ _ hown, ?_⟩, hsafe⟩
        intro below hbelow hbelowSatisfies
        have hdeclared := hschema.satisfies_of_covariant hcovariant hbelow hbelowSatisfies
        obtain ⟨fields, hfields, hfieldsSafe⟩ := ihbelow hbelow hdeclared
        exact selectedPaths_ok_of_safe (Schema.nodup_keys_ofDefinitions definitions) hacyclic
          (appliedFields_eq_ok_iff.mpr ⟨hbelow, hfields⟩) hfieldsSafe
  | spread hfind _ _ ihbody ihrest =>
    obtain ⟨later, hlater, hsafe⟩ := ihrest hkind hsatisfies
    rw [collectFields_cons, firstFields_spread_of_acyclic hacyclic hfind, hlater]
    split_ifs with hcondition
    · obtain ⟨body, hbody, hbodySafe⟩ := ihbody hkind hcondition
      rw [hbody]
      exact ⟨body ++ later, rfl, List.forall_mem_append.mpr ⟨hbodySafe, hsafe⟩⟩
    · exact ⟨later, rfl, hsafe⟩
  | @inline parent condition? _ _ _ _ _ ihbody ihrest =>
    obtain ⟨later, hlater, hsafe⟩ := ihrest hkind hsatisfies
    rw [collectFields_cons, firstFields, hlater]
    split_ifs with hcondition
    · have hentered : (Schema.ofDefinitions definitions).typeSystem.satisfies
          (condition?.getD parent) object = true := by
        cases condition? with
        | none => exact hsatisfies
        | some condition => exact hcondition
      obtain ⟨body, hbody, hbodySafe⟩ := ihbody hkind hentered
      rw [hbody]
      exact ⟨body ++ later, rfl, List.forall_mem_append.mpr ⟨hbodySafe, hsafe⟩⟩
    · exact ⟨later, rfl, hsafe⟩

/--
Validated documents do not fail: on a well-formed schema, selections that are valid at a type have
fields and paths on every object type that satisfies it.
-/
theorem selectedPaths_ok_of_validAt {definitions : List SchemaDefinition}
    (hschema : Schema.WellFormed definitions) {fragments : Fragments} (hacyclic : fragments.Acyclic)
    {parent object : Name} {selections : SelectionSet}
    (hvalid : ValidAt (Schema.ofDefinitions definitions).typeSystem fragments parent selections)
    (hkind : (Schema.ofDefinitions definitions).kind? object = some .object)
    (hsatisfies : (Schema.ofDefinitions definitions).typeSystem.satisfies parent object = true)
    (naming? : Option FieldNaming) (discriminator? : Option (Name → Option String)) :
    (∃ fields, appliedFields (Schema.ofDefinitions definitions).typeSystem fragments object selections =
        .ok fields) ∧
      ∃ paths, selectedPaths (Schema.ofDefinitions definitions).typeSystem fragments
        (.perType naming? discriminator?) selections object = .ok paths := by
  obtain ⟨fields, hcollect, hsafe⟩ :=
    hvalid.collectFields_ok hschema hacyclic naming? discriminator? hkind hsatisfies
  have hfields := appliedFields_eq_ok_iff.mpr ⟨hkind, hcollect⟩
  exact ⟨⟨fields, hfields⟩, selectedPaths_ok_of_safe (Schema.nodup_keys_ofDefinitions definitions)
    hacyclic hfields hsafe⟩

namespace Pets

theorem types_schema : schema.types =
    Schema.builtin.types ++
      [("Owner", ⟨.object, [fieldOf "id" "ID", fieldOf "pet" "Animal"], [], []⟩),
       ("Animal", ⟨.interface, [fieldOf "name" "String"], [], []⟩),
       ("Dog", ⟨.object, [fieldOf "name" "String", fieldOf "breed" "String"], ["Animal"], []⟩),
       ("Cat", ⟨.object, [fieldOf "name" "String"], ["Animal"], []⟩)] := by
  cbv

private theorem entry_cases {name : Name} {entry : TypeEntry} (h : schema.entry? name = some entry) :
    entry ∈ [.ofKind .leaf, ⟨.object, [fieldOf "id" "ID", fieldOf "pet" "Animal"], [], []⟩,
      ⟨.interface, [fieldOf "name" "String"], [], []⟩] ∨
    (name = "Dog" ∧
      entry = ⟨.object, [fieldOf "name" "String", fieldOf "breed" "String"], ["Animal"], []⟩) ∨
    (name = "Cat" ∧ entry = ⟨.object, [fieldOf "name" "String"], ["Animal"], []⟩) := by
  have hmem := (Schema.mem_types_iff (Schema.nodup_keys_ofDefinitions definitions)).mpr h
  change (name, entry) ∈ schema.types at hmem
  rw [types_schema] at hmem
  simp only [Schema.builtin, Schema.builtinScalars, List.map_cons, List.map_nil, List.cons_append,
    List.nil_append, List.mem_cons, Prod.mk.injEq, List.not_mem_nil, or_false] at hmem ⊢
  tauto

private theorem implements_animal {name interface : Name} (h : schema.Implements name interface) :
    (name = "Dog" ∨ name = "Cat") ∧ interface = "Animal" := by
  obtain ⟨entry, hentry, hlists⟩ := h
  rcases entry_cases hentry with hnone | ⟨rfl, rfl⟩ | ⟨rfl, rfl⟩
  · simp only [List.mem_cons, List.not_mem_nil, or_false] at hnone
    rcases hnone with rfl | rfl | rfl <;> simp [TypeEntry.ofKind] at hlists
  · exact ⟨.inl rfl, by simpa using hlists⟩
  · exact ⟨.inr rfl, by simpa using hlists⟩

private theorem returns_of_field {name field : Name} {definition : FieldDefinition}
    (h : schema.field? name field = some definition) :
    definition.type.core ∈ ["ID", "Animal", "String"] := by
  obtain ⟨entry, hentry, hfield⟩ := Option.bind_eq_some_iff.mp h
  have hreturns : ∀ declared ∈ entry.fields, declared.type.core ∈ ["ID", "Animal", "String"] := by
    rcases entry_cases hentry with hcase | ⟨-, rfl⟩ | ⟨-, rfl⟩
    · simp only [List.mem_cons, List.not_mem_nil, or_false] at hcase
      rcases hcase with rfl | rfl | rfl <;> simp [TypeEntry.ofKind, fieldOf, TypeRef.core]
    · simp [fieldOf, TypeRef.core]
    · simp [fieldOf, TypeRef.core]
  exact hreturns definition (by simpa using List.mem_of_find?_eq_some hfield)

theorem wellFormed : Schema.WellFormed definitions where
  one_kind name body hbody := by
    obtain ⟨definition, hmem, hbodyOf⟩ := List.mem_filterMap.mp hbody
    simp only [definitions, List.mem_cons, List.not_mem_nil, or_false] at hmem
    rcases hmem with rfl | rfl | rfl | rfl <;>
      · simp only [typeOf, SchemaDefinition.bodyOf?, Option.ite_none_right_eq_some,
          Option.some.injEq] at hbodyOf
        obtain ⟨rfl, rfl⟩ := hbodyOf
        cbv
  returns_known type field definition h := by
    have hmem := returns_of_field h
    simp only [List.mem_cons, List.not_mem_nil, or_false] at hmem
    rcases hmem with hcore | hcore | hcore <;> rw [hcore] <;> cbv
  lists_interfaces name interface h := by
    obtain ⟨-, rfl⟩ := implements_animal h
    cbv
  has_fields name interface field declared h hfield := by
    obtain ⟨hname, rfl⟩ := implements_animal h
    obtain ⟨entry, hentry, hfind⟩ := Option.bind_eq_some_iff.mp hfield
    obtain rfl : (⟨.interface, [fieldOf "name" "String"], [], []⟩ : TypeEntry) = entry :=
      Option.some.inj (Eq.trans (by cbv) hentry)
    obtain rfl : declared = fieldOf "name" "String" := by
      simpa using List.mem_of_find?_eq_some hfind
    obtain rfl : "name" = field := by simpa [fieldOf] using List.find?_some hfind
    refine ⟨fieldOf "name" "String", ?_, .inl rfl⟩
    rcases hname with rfl | rfl <;> cbv
  transitive name middle interface h h' := by
    obtain ⟨-, rfl⟩ := implements_animal h
    obtain ⟨h, -⟩ := implements_animal h'
    simp at h

theorem selections_valid : ValidAt schema.typeSystem fragments "Owner" selections := by
  have hid : schema.typeSystem.field? "Owner" "id" = some (fieldOf "id" "ID") := by cbv
  have hpet : schema.typeSystem.field? "Owner" "pet" = some (fieldOf "pet" "Animal") := by cbv
  have hname : schema.typeSystem.field? "Animal" "name" = some (fieldOf "name" "String") := by cbv
  have hbreed : schema.typeSystem.field? "Dog" "breed" = some (fieldOf "breed" "String") := by cbv
  have hnamed : fragments.find? "Named" = some ⟨"Animal", [], [leaf "name"]⟩ := by cbv
  refine .field hid .nil (.field hpet (.reserved (by cbv) ?_) .nil)
  exact .spread hnamed (.field hname .nil .nil) (.inline (.field hbreed .nil .nil) .nil)

theorem paths_of_owner :
    ValidAt schema.typeSystem fragments "Owner" selections ∧
      schema.kind? "Owner" = some .object ∧ schema.typeSystem.satisfies "Owner" "Owner" = true ∧
      (∃ fields, appliedFields schema.typeSystem fragments "Owner" selections = .ok fields) ∧
      ∃ paths, selectedPaths schema.typeSystem fragments (.perType none (some some)) selections
        "Owner" = .ok paths := by
  have hkind : schema.kind? "Owner" = some .object := by cbv
  have hsatisfies : schema.typeSystem.satisfies "Owner" "Owner" = true := by cbv
  exact ⟨selections_valid, hkind, hsatisfies,
    selectedPaths_ok_of_validAt wellFormed acyclic selections_valid hkind hsatisfies none (some some)⟩

end Pets

end QueryMask
