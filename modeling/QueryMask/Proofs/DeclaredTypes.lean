import QueryMask.Proofs.Declarations

/-! The type system that the definitions of a schema declare, said without the table that is built from them. -/

namespace QueryMask

section FirstOccurrences

variable {α : Type} [BEq α] [LawfulBEq α]

theorem eraseDups_concat (items : List α) (item : α) :
    (items ++ [item]).eraseDups =
      if items.contains item then items.eraseDups else items.eraseDups ++ [item] := by
  rw [List.eraseDups_append]
  split_ifs with hmem
  · have hnone : [item].removeAll items = [] := by simpa [List.removeAll] using hmem
    rw [hnone, List.eraseDups_nil, List.append_nil]
  · have hone : [item].removeAll items = [item] := by simpa [List.removeAll] using hmem
    rw [hone, List.eraseDups_cons, List.filter_nil, List.eraseDups_nil]

theorem nodup_eraseDups (items : List α) : items.eraseDups.Nodup := by
  induction items using List.reverseRecOn with
  | nil => exact List.nodup_nil
  | append_singleton items item ih =>
    rw [eraseDups_concat]
    split_ifs with hmem
    · exact ih
    · have hnew : item ∉ items.eraseDups := by simpa [List.mem_eraseDups] using hmem
      exact ih.append (List.nodup_singleton _) (List.disjoint_singleton.mpr hnew)

/-- First occurrences of some items are the same among all items as among these. -/
theorem filter_eraseDups (p : α → Bool) (items : List α) :
    items.eraseDups.filter p = (items.filter p).eraseDups := by
  induction items using List.reverseRecOn with
  | nil => rfl
  | append_singleton items item ih =>
    rw [List.filter_append, eraseDups_concat]
    cases hp : p item with
    | false =>
      have hnone : [item].filter p = [] := by simp [hp]
      rw [hnone, List.append_nil, ← ih]
      split_ifs
      · rfl
      · rw [List.filter_append, hnone, List.append_nil]
    | true =>
      have hone : [item].filter p = [item] := by simp [hp]
      have hmem : (items.filter p).contains item = items.contains item := by
        simp [hp]
      rw [hone, eraseDups_concat, hmem, ← ih]
      split_ifs
      · rfl
      · rw [List.filter_append, hone]

end FirstOccurrences

def SchemaDefinition.typeName? : SchemaDefinition → Option Name
  | .type definition => some definition.name
  | .roots _ | .directive _ => none

/-- The names of the types that definitions are about, one for each definition. -/
def typeNames (definitions : List SchemaDefinition) : List Name :=
  definitions.filterMap (·.typeName?)

theorem mem_bodiesOf_iff {definitions : List SchemaDefinition} {name : Name} {body : TypeBody} :
    body ∈ bodiesOf definitions name ↔
      ∃ definition, .type definition ∈ definitions ∧ definition.name = name ∧ definition.body = body := by
  simp only [bodiesOf, List.mem_filterMap]
  constructor
  · rintro ⟨definition, hmem, hbody⟩
    cases definition with
    | type definition =>
      obtain ⟨hname, hsame⟩ := Option.ite_none_right_eq_some.mp hbody
      exact ⟨definition, hmem, hname.symm, Option.some.inj hsame⟩
    | roots definition => cases hbody
    | directive definition => cases hbody
  · rintro ⟨definition, hmem, rfl, rfl⟩
    exact ⟨_, hmem, if_pos rfl⟩

namespace Schema

variable {definitions : List SchemaDefinition} {name object : Name}

theorem kind?_builtin (name : Name) :
    builtin.kind? name = if name ∈ builtinScalars then some .leaf else none := by
  have hkeys : (builtin.types.map (·.1)).Nodup := by simp [builtin, builtinScalars]
  split_ifs with hscalar
  · have hmem : (name, TypeEntry.ofKind .leaf) ∈ builtin.types := List.mem_map.mpr ⟨name, hscalar, rfl⟩
    exact kind?_eq_some_iff.mpr ⟨_, (mem_types_iff hkeys).mp hmem, rfl⟩
  · cases hkind : builtin.kind? name with
    | none => rfl
    | some kind =>
      obtain ⟨entry, hentry, -⟩ := kind?_eq_some_iff.mp hkind
      obtain ⟨scalar, hmem, heq⟩ := List.mem_map.mp ((mem_types_iff hkeys).mpr hentry)
      exact absurd ((Prod.mk.inj heq).1 ▸ hmem) hscalar

theorem kind?_ofDefinitions (definitions : List SchemaDefinition) (name : Name) :
    (ofDefinitions definitions).kind? name =
      if name ∈ builtinScalars then some .leaf
      else (bodiesOf definitions name).head?.map TypeBody.kind := by
  have hentry := entry?_ofDefinitions definitions name
  have hbuiltin := kind?_builtin name
  have hkind : (ofDefinitions definitions).kind? name = kindOf? definitions name := by
    rw [kind?, hentry, Option.map_map]
    exact Option.map_id'
  rw [hkind, kindOf?, hbuiltin]
  split_ifs <;> rfl

theorem entry?_eq_some_iff {entry : TypeEntry} :
    Schema.entry? (ofDefinitions definitions) name = some entry ↔
      ∃ kind, (ofDefinitions definitions).kind? name = some kind ∧
        entry = TypeEntry.ofBodies (bodiesOf definitions name) kind := by
  have hentry := entry?_ofDefinitions definitions name
  simp only [kind?, hentry, Option.map_eq_some_iff, exists_exists_and_eq_and]
  constructor
  · rintro ⟨kind, hkind, rfl⟩
    exact ⟨kind, hkind, rfl⟩
  · rintro ⟨kind, hkind, rfl⟩
    exact ⟨kind, hkind, rfl⟩

theorem field?_ofDefinitions (definitions : List SchemaDefinition) (type field : Name) :
    (ofDefinitions definitions).field? type field =
      (((bodiesOf definitions type).flatMap TypeBody.fields).filter (·.name == field)).getLast? := by
  rw [List.getLast?_filter, Schema.field?]
  cases hentry : Schema.entry? (ofDefinitions definitions) type with
  | some entry =>
    obtain ⟨kind, -, rfl⟩ := entry?_eq_some_iff.mp hentry
    rfl
  | none =>
    -- a type with a body has an entry
    have hbodies : bodiesOf definitions type = [] := by
      rw [entry?_ofDefinitions, Option.map_eq_none_iff, kindOf?, Option.or_eq_none_iff] at hentry
      simpa using hentry.2
    simp [hbodies]

theorem implements_iff :
    (ofDefinitions definitions).Implements object name ↔
      ∃ body ∈ bodiesOf definitions object, name ∈ body.implements := by
  constructor
  · rintro ⟨entry, hentry, hlists⟩
    obtain ⟨kind, -, rfl⟩ := entry?_eq_some_iff.mp hentry
    exact List.mem_flatMap.mp hlists
  · rintro ⟨body, hbody, hlists⟩
    have hknown : ((ofDefinitions definitions).kind? object).isSome = true := by
      rw [kind?_ofDefinitions]
      split_ifs
      · rfl
      · cases hbodies : bodiesOf definitions object with
        | nil => simp [hbodies] at hbody
        | cons first rest => rfl
    obtain ⟨kind, hkind⟩ := Option.isSome_iff_exists.mp hknown
    exact ⟨_, entry?_eq_some_iff.mpr ⟨kind, hkind, rfl⟩, List.mem_flatMap.mpr ⟨body, hbody, hlists⟩⟩

/-- The table has a row for every built-in scalar and for every name, where it first appears. -/
theorem keys_ofDefinitions (definitions : List SchemaDefinition) :
    (ofDefinitions definitions).types.map (·.1) =
      (builtinScalars ++ typeNames definitions).eraseDups := by
  induction definitions using List.reverseRecOn with
  | nil =>
    have hscalars : builtinScalars.eraseDups = builtinScalars := by decide
    have hnames : typeNames [] = [] := rfl
    rw [hnames, List.append_nil, hscalars]
    simp [ofDefinitions, builtin, Function.comp_def]
  | append_singleton definitions definition ih =>
    have hstep : ofDefinitions (definitions ++ [definition]) =
        (ofDefinitions definitions).add definition := by simp [ofDefinitions]
    have hnames : typeNames (definitions ++ [definition]) =
        typeNames definitions ++ definition.typeName?.toList := by
      cases hname : definition.typeName? <;> simp [typeNames, hname]
    rw [hstep, hnames, ← List.append_assoc]
    cases definition with
    | roots definition => simpa [SchemaDefinition.typeName?, add] using ih
    | directive definition => simpa [SchemaDefinition.typeName?, add] using ih
    | type definition =>
      simp only [SchemaDefinition.typeName?, Option.toList_some, eraseDups_concat, add,
        keys_extendEntry, ih, List.contains_iff_mem, List.mem_eraseDups]

/-- Rows that are picked by kind and entry, and are not built-in scalars, come in order of first appearance. -/
theorem map_filter_types (p : TypeEntry → Bool) (hobject : ∀ entry, p entry = true → entry.kind = .object) :
    ((ofDefinitions definitions).types.filter fun type => p type.2).map (·.1) =
      (typeNames definitions).eraseDups.filter fun name =>
        (Schema.entry? (ofDefinitions definitions) name).any p := by
  have hkeys := nodup_keys_ofDefinitions definitions
  have hrows : (ofDefinitions definitions).types.filter (fun type => p type.2) =
      (ofDefinitions definitions).types.filter
        ((fun name => (Schema.entry? (ofDefinitions definitions) name).any p) ∘ (·.1)) := by
    refine List.filter_congr fun type htype => ?_
    have hentry := (mem_types_iff hkeys).mp htype
    simp [hentry]
  have hscalars : builtinScalars.filter (fun name =>
      (Schema.entry? (ofDefinitions definitions) name).any p) = [] := by
    refine List.filter_eq_nil_iff.mpr fun name hscalar hpicked => ?_
    have hleaf : (ofDefinitions definitions).kind? name = some .leaf := by
      rw [kind?_ofDefinitions, if_pos hscalar]
    cases hentry : Schema.entry? (ofDefinitions definitions) name with
    | none => simp [hentry] at hpicked
    | some entry =>
      have hp : p entry = true := by simpa [hentry] using hpicked
      have hkind : (ofDefinitions definitions).kind? name = some .object :=
        kind?_eq_some_iff.mpr ⟨entry, hentry, hobject entry hp⟩
      rw [hleaf] at hkind
      cases hkind
  rw [hrows, ← List.filter_map, keys_ofDefinitions, filter_eraseDups, filter_eraseDups,
    List.filter_append, hscalars, List.nil_append]

theorem objectTypes_ofDefinitions (definitions : List SchemaDefinition) :
    (ofDefinitions definitions).objectTypes =
      (typeNames definitions).eraseDups.filter fun name =>
        (ofDefinitions definitions).kind? name = some .object := by
  unfold objectTypes
  rw [map_filter_types (fun entry => entry.kind == .object) (by simp)]
  refine List.filter_congr fun name _ => ?_
  rw [Bool.eq_iff_iff, decide_eq_true_iff, kind?]
  cases Schema.entry? (ofDefinitions definitions) name <;> simp

theorem possibleTypes_of_union (hkind : (ofDefinitions definitions).kind? name = some .union) :
    (ofDefinitions definitions).possibleTypes name =
      ((bodiesOf definitions name).flatMap TypeBody.members).filter fun member =>
        (ofDefinitions definitions).kind? member = some .object := by
  have hentry := entry?_eq_some_iff.mpr ⟨_, hkind, rfl⟩
  simp only [possibleTypes, hentry, TypeEntry.ofBodies]
  refine List.filter_congr fun member _ => ?_
  rw [Bool.eq_iff_iff, decide_eq_true_iff, isObject, beq_iff_eq]

theorem possibleTypes_of_interface (hkind : (ofDefinitions definitions).kind? name = some .interface) :
    (ofDefinitions definitions).possibleTypes name =
      (typeNames definitions).eraseDups.filter fun object =>
        (ofDefinitions definitions).kind? object = some .object ∧
          ∃ body ∈ bodiesOf definitions object, name ∈ body.implements := by
  have hentry := entry?_eq_some_iff.mpr ⟨_, hkind, rfl⟩
  simp only [possibleTypes, hentry, TypeEntry.ofBodies, implementors]
  rw [map_filter_types (fun entry => entry.kind == .object && entry.implements.contains name)
    (by simp +contextual)]
  refine List.filter_congr fun object _ => ?_
  rw [Bool.eq_iff_iff, decide_eq_true_iff, ← implements_iff, Implements, kind?]
  cases Schema.entry? (ofDefinitions definitions) object <;> simp

theorem possibleTypes_of_other
    (hkind : ((ofDefinitions definitions).kind? name).any TypeKind.isAbstract = false) :
    (ofDefinitions definitions).possibleTypes name = [] := by
  have hkeys := nodup_keys_ofDefinitions definitions
  refine List.eq_nil_iff_forall_not_mem.mpr fun object hobject => ?_
  have habstract := (kinds_of_mem_possibleTypes hkeys hobject).1
  rw [hkind] at habstract
  cases habstract

theorem possibleTypes_of_neither (hunion : (ofDefinitions definitions).kind? name ≠ some .union)
    (hinterface : (ofDefinitions definitions).kind? name ≠ some .interface) :
    (ofDefinitions definitions).possibleTypes name = [] := by
  apply possibleTypes_of_other
  cases hkind : (ofDefinitions definitions).kind? name with
  | none => rfl
  | some kind =>
    cases kind with
    | union => exact absurd hkind hunion
    | interface => exact absurd hkind hinterface
    | object | leaf | inputObject => rfl

theorem isPossible_iff {abstract : Name} :
    (ofDefinitions definitions).typeSystem.isPossible abstract object = true ↔
      (ofDefinitions definitions).kind? object = some .object ∧
        (((ofDefinitions definitions).kind? abstract = some .interface ∧
            ∃ body ∈ bodiesOf definitions object, abstract ∈ body.implements) ∨
          ((ofDefinitions definitions).kind? abstract = some .union ∧
            ∃ body ∈ bodiesOf definitions abstract, object ∈ body.members)) := by
  have hkeys := nodup_keys_ofDefinitions definitions
  have hmem : (ofDefinitions definitions).typeSystem.isPossible abstract object = true ↔
      object ∈ (ofDefinitions definitions).possibleTypes abstract := decide_eq_true_iff
  rw [hmem]
  cases hkind : (ofDefinitions definitions).kind? abstract with
  | none =>
    rw [possibleTypes_of_other (by rw [hkind]; rfl)]
    simp
  | some kind =>
    cases kind with
    | interface =>
      rw [mem_possibleTypes_interface_iff hkeys hkind, implements_iff]
      simp
    | union =>
      rw [possibleTypes_of_union hkind, List.mem_filter, List.mem_flatMap, decide_eq_true_iff]
      simp [and_comm]
    | object | leaf | inputObject =>
      rw [possibleTypes_of_other (by rw [hkind]; rfl)]
      simp

end Schema

/-- What a type system says when it says what definitions declare. -/
structure Declares (definitions : List SchemaDefinition) (system : TypeSystem) : Prop where
  kind : ∀ name, system.kind? name =
    if name ∈ Schema.builtinScalars then some .leaf
    else (bodiesOf definitions name).head?.map TypeBody.kind
  field : ∀ type field, system.field? type field =
    (((bodiesOf definitions type).flatMap TypeBody.fields).filter (·.name == field)).getLast?
  union : ∀ name, system.kind? name = some .union →
    system.possibleTypes name =
      ((bodiesOf definitions name).flatMap TypeBody.members).filter fun member =>
        system.kind? member = some .object
  interface : ∀ name, system.kind? name = some .interface →
    system.possibleTypes name = (typeNames definitions).eraseDups.filter fun object =>
      system.kind? object = some .object ∧
        ∃ body ∈ bodiesOf definitions object, name ∈ body.implements
  other : ∀ name, (system.kind? name).any TypeKind.isAbstract = false → system.possibleTypes name = []
  objects : system.objectTypes =
    (typeNames definitions).eraseDups.filter fun name => system.kind? name = some .object
  possible : ∀ abstract object, system.isPossible abstract object = true ↔
    system.kind? object = some .object ∧
      ((system.kind? abstract = some .interface ∧
          ∃ body ∈ bodiesOf definitions object, abstract ∈ body.implements) ∨
        (system.kind? abstract = some .union ∧
          ∃ body ∈ bodiesOf definitions abstract, object ∈ body.members))
  satisfied : ∀ condition object, system.satisfies condition object = true ↔
    condition = object ∨ system.isPossible condition object = true

/--
The schema computes exactly the declared types, whatever the order of definitions and extensions,
also where names are repeated, used with several kinds or built in.
-/
theorem Schema.declares_ofDefinitions (definitions : List SchemaDefinition) :
    Declares definitions (ofDefinitions definitions).typeSystem where
  kind := kind?_ofDefinitions definitions
  field := field?_ofDefinitions definitions
  union _ := possibleTypes_of_union
  interface _ := possibleTypes_of_interface
  other _ := possibleTypes_of_other
  objects := objectTypes_ofDefinitions definitions
  possible _ _ := isPossible_iff
  satisfied condition object := by
    have hkeys := nodup_keys_ofDefinitions definitions
    have hpossible : (ofDefinitions definitions).typeSystem.isPossible condition object = true ↔
        object ∈ (ofDefinitions definitions).possibleTypes condition := decide_eq_true_iff
    rw [satisfies_iff hkeys, hpossible]

end QueryMask
