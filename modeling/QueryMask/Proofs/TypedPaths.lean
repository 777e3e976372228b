import QueryMask.Proofs.Declarations
import QueryMask.Proofs.Visits
import Mathlib

/-! What selected paths say: their segments walk through the types from field to field. Where every field that
returns a composite type has selections, no path goes on behind the end of another one. -/

namespace QueryMask

/-- A field that an object type defines, and that does not belong to introspection. -/
structure DefinedOn (system : TypeSystem) (type field : Name) (definition : FieldDefinition) : Prop where
  object : system.kind? type = some .object
  unreserved : field.isReserved = false
  defined : system.field? type field = some definition

/--
A walk through the types along the segments of a path, up to a field that returns `last`. Below a field that
returns an abstract type, the next segment is a possible type of it.
-/
inductive TypedWalk (system : TypeSystem) : Name → List String → Name → Prop where
  | last {type field definition} (hfield : DefinedOn system type field definition) :
      TypedWalk system type [field] definition.type.core
  | object {type field definition rest last} (hfield : DefinedOn system type field definition)
      (hkind : system.kind? definition.type.core = some .object)
      (hrest : TypedWalk system definition.type.core rest last) :
      TypedWalk system type (field :: rest) last
  | possible {type field definition kind object rest last} (hfield : DefinedOn system type field definition)
      (hkind : system.kind? definition.type.core = some kind) (habstract : kind.isAbstract = true)
      (hpossible : object ∈ system.possibleTypes definition.type.core)
      (hobject : system.kind? object = some .object) (hrest : TypedWalk system object rest last) :
      TypedWalk system type (field :: object :: rest) last

/-- The name of a type below which nothing can be selected. -/
def TypeSystem.IsLeaf (system : TypeSystem) (name : Name) : Prop :=
  ∃ kind, system.kind? name = some kind ∧ kind.isComposite = false

section Walks

variable {system : TypeSystem} {type last other : Name} {front whole : List String}

theorem DefinedOn.unique {field : Name} {definition definition' : FieldDefinition}
    (h : DefinedOn system type field definition) (h' : DefinedOn system type field definition') :
    definition = definition' :=
  Option.some.inj (h.defined.symm.trans h'.defined)

theorem TypedWalk.ne_nil (h : TypedWalk system type front last) : front ≠ [] := by
  cases h <;> simp

theorem TypedWalk.kind (h : TypedWalk system type front last) : system.kind? type = some .object := by
  cases h <;> exact DefinedOn.object ‹_›

theorem TypeSystem.IsLeaf.not_composite {name : Name} {kind : TypeKind} (h : system.IsLeaf name)
    (hkind : system.kind? name = some kind) : kind.isComposite = false := by
  obtain ⟨kind', hkind', hleaf⟩ := h
  rwa [Option.some.inj (hkind.symm.trans hkind')]

/-- The segments decide the types of a walk, so one that ends at a leaf goes no further. -/
theorem TypedWalk.eq_of_isPrefix (h : TypedWalk system type front last) (hleaf : system.IsLeaf last)
    (hother : TypedWalk system type whole other) (hfirst : front <+: whole) : front = whole := by
  induction h generalizing whole other with
  | last hfield =>
    cases hother with
    | last => simpa using hfirst
    | object hfield' hkind =>
      obtain ⟨rfl, -⟩ := List.cons_prefix_cons.mp hfirst
      obtain rfl := hfield.unique hfield'
      exact absurd (hleaf.not_composite hkind) (by simp [TypeKind.isComposite])
    | @possible _ _ _ kind _ _ _ hfield' hkind habstract =>
      obtain ⟨rfl, -⟩ := List.cons_prefix_cons.mp hfirst
      obtain rfl := hfield.unique hfield'
      have hcomposite := (kind.composite_of_isAbstract habstract).1
      exact absurd (hleaf.not_composite hkind) (by simp [hcomposite])
  | object hfield hkind hrest ih =>
    cases hother with
    | last =>
      obtain ⟨-, hnil⟩ := List.cons_prefix_cons.mp hfirst
      exact absurd (List.prefix_nil.mp hnil) hrest.ne_nil
    | object hfield' _ hrest' =>
      obtain ⟨rfl, hfurther⟩ := List.cons_prefix_cons.mp hfirst
      obtain rfl := hfield.unique hfield'
      rw [ih hleaf hrest' hfurther]
    | possible hfield' hkind' habstract =>
      obtain ⟨rfl, -⟩ := List.cons_prefix_cons.mp hfirst
      obtain rfl := hfield.unique hfield'
      rw [← Option.some.inj (hkind.symm.trans hkind')] at habstract
      simp [TypeKind.isAbstract] at habstract
  | possible hfield hkind habstract _ _ hrest ih =>
    cases hother with
    | last =>
      obtain ⟨-, hnil⟩ := List.cons_prefix_cons.mp hfirst
      simp at hnil
    | object hfield' hkind' =>
      obtain ⟨rfl, -⟩ := List.cons_prefix_cons.mp hfirst
      obtain rfl := hfield.unique hfield'
      rw [Option.some.inj (hkind.symm.trans hkind')] at habstract
      simp [TypeKind.isAbstract] at habstract
    | possible _ _ _ _ _ hrest' =>
      obtain ⟨rfl, hobjects⟩ := List.cons_prefix_cons.mp hfirst
      obtain ⟨rfl, hfurther⟩ := List.cons_prefix_cons.mp hobjects
      rw [ih hleaf hrest' hfurther]

end Walks

/-- Every field that applies in a visit and returns a composite type has selections. -/
def Visit.SelectsBelow (system : TypeSystem) (fragments : Fragments) (visit : Visit) : Prop :=
  ∀ place field, AppliedAt system fragments visit.type visit.selections place field →
    (system.kind? field.returnType).any TypeKind.isComposite = true → field.selections ≠ []

/-- All visits from one on select below their composite fields. -/
def Visit.Complete (system : TypeSystem) (fragments : Fragments)
    (discriminator? : Option (Name → Option String)) (visit : Visit) : Prop :=
  ∀ count inner, Visit.Inside system fragments none discriminator? count visit inner →
    inner.SelectsBelow system fragments

/-- The path walks from the type of a visit to a field, which returns a leaf if the visits are complete. -/
def Visit.Denotes (system : TypeSystem) (fragments : Fragments)
    (discriminator? : Option (Name → Option String)) (visit : Visit) (path : Path) : Prop :=
  ∃ last, TypedWalk system visit.type path.segments last ∧
    (visit.Complete system fragments discriminator? → system.IsLeaf last)

section Paths

variable {system : TypeSystem} {fragments : Fragments} {discriminator? : Option (Name → Option String)}
  {outer inner : Visit} {paths : List Path}

theorem Visit.Complete.opened (h : outer.Complete system fragments discriminator?)
    (hopens : outer.Opens system fragments none discriminator? inner) :
    inner.Complete system fragments discriminator? :=
  fun count innermost hinside => h (count + 1) innermost (.opened hopens hinside)

private theorem exists_of_variantPaths {discriminator : Name → Option String}
    (hnames : ∀ object, discriminator object = some object) {compute : Name → Run (List Path)}
    {objects : List Name} {below : List Path}
    (h : (Run.concatMap (variantPaths discriminator compute) objects).outcome = .ok below) {sub : Path}
    (hsub : sub ∈ below) :
    ∃ object ∈ objects, ∃ further, (compute object).outcome = .ok further ∧
      ∃ path ∈ further, sub = Path.join object path := by
  obtain ⟨hparts, rfl⟩ := Run.outcome_concatMap_eq_ok_iff.mp h
  obtain ⟨object, hobject, hmem⟩ := List.mem_flatMap.mp hsub
  have hpart := hparts object hobject
  simp only [variantPaths, hnames] at hpart hmem
  obtain ⟨further, hfurther, hresults⟩ := Run.outcome_bind_pure_eq_ok_iff.mp hpart
  rw [hresults] at hmem
  obtain ⟨path, hpath, rfl⟩ := List.mem_map.mp hmem
  exact ⟨object, hobject, further, hfurther, path, hpath, rfl⟩

/-- The paths of a field begin with its name, and go on as the paths of the visits that it opens. -/
theorem denotes_of_fieldPaths
    (hfields : ∀ type field definition, system.field? type field = some definition → '.' ∉ field.toList)
    (htypes : ∀ abstract, ∀ object ∈ system.possibleTypes abstract, '.' ∉ object.toList)
    (hnames : ∀ discriminator ∈ discriminator?, ∀ object, discriminator object = some object)
    {compute : SelectionSet → Name → Run (List Path)} {place : Place} {field : AppliedField}
    (hkind : system.kind? outer.type = some .object)
    (happlied : AppliedAt system fragments outer.type outer.selections place field)
    (hcompute : ∀ inner, outer.Opens system fragments none discriminator? inner → ∀ below,
      (compute inner.selections inner.type).outcome = .ok below →
        ∀ path ∈ below, inner.Denotes system fragments discriminator? path)
    (h : (fieldPaths system (.perType none discriminator?) compute outer.type field).outcome = .ok paths) :
    ∀ path ∈ paths, outer.Denotes system fragments discriminator? path := by
  have hdefined : DefinedOn system outer.type field.name field.definition :=
    ⟨hkind, happlied.2.1, happlied.2.2⟩
  have hname : Path.segments field.name = [field.name] :=
    Path.segments_of_not_mem (hfields _ _ _ happlied.2.2)
  intro path hpath
  rcases outcome_fieldPaths_eq_ok_iff.mp h with ⟨-, rfl⟩ | ⟨segment, kind, hsegment, hreturns, hcase⟩
  · simp at hpath
  obtain rfl : field.name = segment := Option.some.inj hsegment
  rcases hcase with ⟨hleaf, rfl⟩ | ⟨hcomposite, hne, below, hbelow, rfl⟩
  · obtain rfl : path = field.name := by simpa using hpath
    refine ⟨field.returnType, hname ▸ .last hdefined, fun hcomplete => ⟨kind, hreturns, ?_⟩⟩
    by_contra hcomposite
    have hselects := hcomplete 0 outer .self place field happlied (by simpa [hreturns] using hcomposite)
    exact hleaf.elim hcomposite hselects
  · obtain ⟨sub, hsub, rfl⟩ := List.mem_map.mp hpath
    have hjoin : Path.segments (Path.join field.name sub) = field.name :: Path.segments sub := by
      rw [Path.segments_join, hname, List.singleton_append]
    rw [subPaths_perType] at hbelow
    split_ifs at hbelow with hobject
    · have hopens : outer.Opens system fragments none discriminator?
          ⟨field.selections, field.returnType⟩ := .object happlied hsegment hne (hobject ▸ hreturns)
      obtain ⟨last, hwalk, hlast⟩ := hcompute _ hopens below hbelow sub hsub
      have hfield : TypedWalk system outer.type (field.name :: Path.segments sub) last :=
        .object hdefined (hobject ▸ hreturns) hwalk
      exact ⟨last, hjoin ▸ hfield, fun hcomplete => hlast (hcomplete.opened hopens)⟩
    · have habstract := TypeKind.isAbstract_of_composite hcomposite hobject
      cases hdiscriminator : discriminator? with
      | none =>
        obtain rfl : [] = below := by simpa [hdiscriminator] using hbelow
        simp at hsub
      | some discriminator =>
        subst hdiscriminator
        have hown := hnames discriminator rfl
        rw [Option.elim_some, Run.bind_eq_of_ok _ rfl] at hbelow
        obtain ⟨object, hpossible, further, hfurther, deeper, hdeeper, rfl⟩ :=
          exists_of_variantPaths hown hbelow hsub
        have hopens : outer.Opens system fragments none (some discriminator) ⟨field.selections, object⟩ :=
          .possible happlied hsegment hne hreturns habstract rfl hpossible (hown object)
        obtain ⟨last, hwalk, hlast⟩ := hcompute _ hopens further hfurther deeper hdeeper
        have hfield : TypedWalk system outer.type (field.name :: object :: Path.segments deeper) last :=
          .possible hdefined hreturns habstract hpossible hwalk.kind hwalk
        rw [Path.segments_join object, Path.segments_of_not_mem (htypes _ object hpossible),
          List.singleton_append] at hjoin
        exact ⟨last, hjoin ▸ hfield, fun hcomplete => hlast (hcomplete.opened hopens)⟩

theorem denotes_of_pathsWithin
    (hfields : ∀ type field definition, system.field? type field = some definition → '.' ∉ field.toList)
    (htypes : ∀ abstract, ∀ object ∈ system.possibleTypes abstract, '.' ∉ object.toList)
    (hnames : ∀ discriminator ∈ discriminator?, ∀ object, discriminator object = some object) {depth : Nat}
    (visit : Visit)
    (h : (pathsWithin system fragments (.perType none discriminator?) depth visit.selections
      visit.type).outcome = .ok paths) :
    ∀ path ∈ paths, visit.Denotes system fragments discriminator? path := by
  induction depth generalizing visit paths with
  | zero => simp [pathsWithin] at h
  | succ depth ih =>
    rw [pathsWithin_succ, Run.outcome_bind, bind_eq_ok_iff] at h
    obtain ⟨fields, happlied, h⟩ := h
    obtain ⟨hkind, hcollected⟩ := appliedFields_eq_ok_iff.mp happlied
    obtain ⟨hparts, rfl⟩ := Run.outcome_concatMap_eq_ok_iff.mp h
    intro path hpath
    obtain ⟨field, hfield, hmem⟩ := List.mem_flatMap.mp hpath
    obtain ⟨place, hplaced⟩ := exists_appliedAt hcollected hfield
    exact denotes_of_fieldPaths hfields htypes hnames hkind hplaced
      (fun inner _ _ hbelow => ih inner hbelow) (hparts field hfield) path hmem

end Paths

/--
Selected paths denote fields, where names of fields and of possible types hold no dot and name the segments.
Every path walks through the types from field to field. If moreover every field that returns a composite type
has selections, on all types that it is evaluated on, then every path ends at a field that returns a leaf, and
none is the front of another one.
-/
theorem selectedPaths_denote_fields {system : TypeSystem} {discriminator? : Option (Name → Option String)}
    (hfields : ∀ type field definition, system.field? type field = some definition → '.' ∉ field.toList)
    (htypes : ∀ abstract, ∀ object ∈ system.possibleTypes abstract, '.' ∉ object.toList)
    (hnames : ∀ discriminator ∈ discriminator?, ∀ object, discriminator object = some object)
    {fragments : Fragments} {selections : SelectionSet} {type : Name} {paths : List Path}
    (h : selectedPaths system fragments (.perType none discriminator?) selections type = .ok paths) :
    (∀ path ∈ paths, ∃ last, TypedWalk system type path.segments last) ∧
    (Visit.Complete system fragments discriminator? ⟨selections, type⟩ →
      (∀ path ∈ paths, ∃ last, TypedWalk system type path.segments last ∧ system.IsLeaf last) ∧
      ∀ path ∈ paths, ∀ other ∈ paths, path.segments <+: other.segments →
        path.segments = other.segments) := by
  have hdenotes := denotes_of_pathsWithin hfields htypes hnames ⟨selections, type⟩ h
  refine ⟨fun path hpath => ?_, fun hcomplete => ⟨fun path hpath => ?_, ?_⟩⟩
  · obtain ⟨last, hwalk, -⟩ := hdenotes path hpath
    exact ⟨last, hwalk⟩
  · obtain ⟨last, hwalk, hlast⟩ := hdenotes path hpath
    exact ⟨last, hwalk, hlast hcomplete⟩
  · intro path hpath other hother hfirst
    obtain ⟨last, hwalk, hlast⟩ := hdenotes path hpath
    obtain ⟨_, hotherWalk, -⟩ := hdenotes other hother
    exact hwalk.eq_of_isPrefix (hlast hcomplete) hotherWalk hfirst

namespace Pets

theorem fields_without_dots {type field : Name} {definition : FieldDefinition}
    (h : schema.typeSystem.field? type field = some definition) : '.' ∉ field.toList := by
  have hall : ∀ entry ∈ schema.types, ∀ own ∈ entry.2.fields, '.' ∉ own.name.toList := by decide
  obtain ⟨entry, hentry, hown, rfl⟩ := Schema.mem_of_field? h
  exact hall _ hentry definition hown

theorem types_without_dots {abstract object : Name}
    (h : object ∈ schema.typeSystem.possibleTypes abstract) : '.' ∉ object.toList := by
  have hall : ∀ name ∈ schema.objectTypes, '.' ∉ name.toList := by decide
  exact hall object (Schema.mem_objectTypes
    (Schema.kinds_of_mem_possibleTypes (Schema.nodup_keys_ofDefinitions definitions) h).2)

theorem applied_to_owner {place : Place} {field : AppliedField}
    (h : AppliedAt schema.typeSystem fragments "Owner" selections place field) :
    field.returnType = "ID" ∨ field.returnType = "Animal" ∧ field.selections ≠ [] := by
  have hcollected : collectFields schema.typeSystem fragments "Owner" [] selections =
      .ok [⟨"id", fieldOf "id" "ID", []⟩, ⟨"pet", fieldOf "pet" "Animal",
        [leaf "__typename", .spread "Named" [], .inline (some "Dog") [] [leaf "breed"]]⟩] := by cbv
  have hmem := (placed_collectFields hcollected).mem_iff.mpr ⟨place, h⟩
  simp only [List.mem_cons, List.not_mem_nil, or_false] at hmem
  rcases hmem with rfl | rfl
  · exact .inl rfl
  · exact .inr ⟨rfl, by simp⟩

theorem applied_to_pet {type : Name} (htype : type = "Dog" ∨ type = "Cat") {selections : SelectionSet}
    {place : Place} {field : AppliedField}
    (h : AppliedAt schema.typeSystem fragments type selections place field) :
    field.returnType = "String" := by
  have hall : ∀ entry ∈ schema.types, entry.1 = "Dog" ∨ entry.1 = "Cat" →
      ∀ own ∈ entry.2.fields, own.type.core = "String" := by decide
  obtain ⟨entry, hentry, hown, -⟩ := Schema.mem_of_field? h.2.2
  exact hall _ hentry htype _ hown

/-- Below the owner only pets are visited, and below pets nothing. -/
theorem complete : Visit.Complete schema.typeSystem fragments (some some) ⟨selections, "Owner"⟩ := by
  have hid : schema.typeSystem.kind? "ID" = some .leaf := by cbv
  have hstring : schema.typeSystem.kind? "String" = some .leaf := by cbv
  have hanimal : schema.typeSystem.kind? "Animal" = some .interface := by cbv
  have hpets : schema.typeSystem.possibleTypes "Animal" = ["Dog", "Cat"] := by decide
  have hpet : ∀ {count} {outer inner : Visit}, outer.type = "Dog" ∨ outer.type = "Cat" →
      Visit.Inside schema.typeSystem fragments none (some some) count outer inner →
      inner.SelectsBelow schema.typeSystem fragments := by
    intro count outer inner htype hinside
    cases hinside with
    | self =>
      intro place field happlied hcomposite
      rw [applied_to_pet htype happlied, hstring] at hcomposite
      simp [TypeKind.isComposite] at hcomposite
    | opened hopens =>
      cases hopens with
      | object happlied _ _ hkind =>
        rw [applied_to_pet htype happlied, hstring] at hkind
        simp at hkind
      | possible happlied _ _ hkind habstract =>
        rw [applied_to_pet htype happlied, hstring] at hkind
        simp [← Option.some.inj hkind, TypeKind.isAbstract] at habstract
  intro count inner hinside
  cases hinside with
  | self =>
    intro place field happlied hcomposite
    rcases applied_to_owner happlied with hreturns | ⟨-, hbelow⟩
    · simp [hreturns, hid, TypeKind.isComposite] at hcomposite
    · exact hbelow
  | opened hopens hinside =>
    cases hopens with
    | object happlied _ _ hkind =>
      rcases applied_to_owner happlied with hreturns | ⟨hreturns, -⟩ <;> simp [hreturns, hid, hanimal] at hkind
    | possible happlied _ _ hkind habstract _ hpossible =>
      rcases applied_to_owner happlied with hreturns | ⟨hreturns, -⟩
      · rw [hreturns, hid] at hkind
        simp [← Option.some.inj hkind, TypeKind.isAbstract] at habstract
      · exact hpet (by simpa [hreturns, hpets] using hpossible) hinside

theorem paths_denote_fields :
    selectedPaths schema.typeSystem fragments (.perType none (some some)) selections "Owner" =
        .ok ["id", "pet.Dog.name", "pet.Dog.breed", "pet.Cat.name"] ∧
      Visit.Complete schema.typeSystem fragments (some some) ⟨selections, "Owner"⟩ ∧
      (∀ path ∈ ["id", "pet.Dog.name", "pet.Dog.breed", "pet.Cat.name"],
        ∃ last, TypedWalk schema.typeSystem "Owner" (Path.segments path) last ∧
          schema.typeSystem.IsLeaf last) ∧
      ∀ path ∈ ["id", "pet.Dog.name", "pet.Dog.breed", "pet.Cat.name"],
        ∀ other ∈ ["id", "pet.Dog.name", "pet.Dog.breed", "pet.Cat.name"],
          Path.segments path <+: Path.segments other → Path.segments path = Path.segments other := by
  have hpaths : selectedPaths schema.typeSystem fragments (.perType none (some some)) selections
      "Owner" = .ok ["id", "pet.Dog.name", "pet.Dog.breed", "pet.Cat.name"] := by cbv
  have hdenotes := selectedPaths_denote_fields (fun _ _ _ => fields_without_dots)
    (fun _ _ => types_without_dots) (by simp) hpaths
  exact ⟨hpaths, complete, hdenotes.2 complete⟩

end Pets

end QueryMask
