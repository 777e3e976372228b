import QueryMask.Schema.Basic
import Mathlib.Data.List.Induction
import Mathlib.Data.List.Nodup
import Mathlib.Tactic.Common

/-! What the definitions of a schema declare about a name, gathered from all of them at once. -/

namespace QueryMask

namespace TypeBody

def fields : TypeBody → List FieldDefinition
  | .object _ fields | .interface _ fields => fields
  | .scalar | .union _ | .enum _ | .inputObject _ => []

def implements : TypeBody → List Name
  | .object implements _ | .interface implements _ => implements
  | .scalar | .union _ | .enum _ | .inputObject _ => []

def members : TypeBody → List Name
  | .union members => members
  | .scalar | .object _ _ | .interface _ _ | .enum _ | .inputObject _ => []

/-- Only objects and interfaces declare fields. -/
theorem kind_of_fields {body : TypeBody} {field : FieldDefinition} (h : field ∈ body.fields) :
    body.kind = .object ∨ body.kind = .interface := by
  cases body <;> simp_all [fields, kind]

end TypeBody

def SchemaDefinition.bodyOf? (name : Name) : SchemaDefinition → Option TypeBody
  | .type definition => if name = definition.name then some definition.body else none
  | .roots _ | .directive _ => none

def bodiesOf (definitions : List SchemaDefinition) (name : Name) : List TypeBody :=
  definitions.filterMap (·.bodyOf? name)

namespace TypeEntry

/-- The entry of a type of a kind with all that some bodies declare. -/
def ofBodies (bodies : List TypeBody) (kind : TypeKind) : TypeEntry where
  kind := kind
  fields := bodies.flatMap TypeBody.fields
  implements := bodies.flatMap TypeBody.implements
  members := bodies.flatMap TypeBody.members

theorem extend_ofBodies (bodies : List TypeBody) (kind : TypeKind) (body : TypeBody) :
    (ofBodies bodies kind).extend body = ofBodies (bodies ++ [body]) kind := by
  cases body <;>
    simp [ofBodies, extend, TypeBody.fields, TypeBody.implements, TypeBody.members]

end TypeEntry

namespace Schema

/-- The kind of a name: built-in scalars are leaves, other names get that of their first body. -/
def kindOf? (definitions : List SchemaDefinition) (name : Name) : Option TypeKind :=
  (builtin.kind? name).or ((bodiesOf definitions name).head?.map TypeBody.kind)

theorem entry?_builtin (name : Name) :
    builtin.entry? name = (builtin.kind? name).map TypeEntry.ofKind := by
  unfold kind?
  cases hentry : builtin.entry? name with
  | none => rfl
  | some entry =>
    obtain ⟨before, after, hsplit, -⟩ := List.lookup_eq_some_iff.mp hentry
    have hmem : (name, entry) ∈ builtin.types := by simp [hsplit]
    obtain ⟨scalar, -, hscalar⟩ := List.mem_map.mp hmem
    obtain ⟨-, rfl⟩ := Prod.mk.inj hscalar
    rfl

theorem entry?_add (schema : Schema) (definition : SchemaDefinition) (name : Name) :
    Schema.entry? (schema.add definition) name =
      match definition.bodyOf? name with
      | none => schema.entry? name
      | some body => some (((schema.entry? name).getD (.ofKind body.kind)).extend body) := by
  cases definition with
  | type definition =>
    by_cases hname : name = definition.name
    · subst hname
      simp [add, entry?, SchemaDefinition.bodyOf?, lookup_extendEntry_self]
    · simp [add, entry?, SchemaDefinition.bodyOf?, hname, lookup_extendEntry_of_ne hname]
  | roots definition => rfl
  | directive definition => rfl

/-- An entry gathers all definitions of its name. -/
theorem entry?_ofDefinitions (definitions : List SchemaDefinition) (name : Name) :
    Schema.entry? (ofDefinitions definitions) name =
      (kindOf? definitions name).map (TypeEntry.ofBodies (bodiesOf definitions name)) := by
  induction definitions using List.reverseRecOn with
  | nil =>
    simp only [ofDefinitions, List.foldl_nil, entry?_builtin, kindOf?, bodiesOf, List.filterMap_nil,
      List.head?_nil, Option.map_none, Option.or_none]
    rfl
  | append_singleton definitions definition ih =>
    have hstep : ofDefinitions (definitions ++ [definition]) =
        (ofDefinitions definitions).add definition := by simp [ofDefinitions]
    rw [hstep, entry?_add, ih]
    cases hbody : definition.bodyOf? name with
    | none => simp [kindOf?, bodiesOf, hbody]
    | some body =>
      have hbodies : bodiesOf (definitions ++ [definition]) name = bodiesOf definitions name ++ [body] := by
        simp [bodiesOf, hbody]
      simp only [kindOf?, hbodies]
      cases hkind : builtin.kind? name with
      | some kind => simp [TypeEntry.extend_ofBodies]
      | none =>
        cases hfirst : bodiesOf definitions name with
        | nil => exact congrArg some (TypeEntry.extend_ofBodies [] body.kind body)
        | cons first others => simpa using TypeEntry.extend_ofBodies (first :: others) first.kind body

theorem keys_extendEntry (name : Name) (body : TypeBody) (types : List (Name × TypeEntry)) :
    (extendEntry name body types).map (·.1) =
      if name ∈ types.map (·.1) then types.map (·.1) else types.map (·.1) ++ [name] := by
  induction types with
  | nil => simp [extendEntry]
  | cons entry rest ih =>
    obtain ⟨known, entry⟩ := entry
    by_cases hname : name = known
    · simp [extendEntry, hname]
    · simp only [extendEntry, beq_iff_eq, hname, if_false, List.map_cons, ih, List.mem_cons, false_or]
      split_ifs <;> rfl

/-- No name has two entries. -/
theorem nodup_keys_ofDefinitions (definitions : List SchemaDefinition) :
    ((ofDefinitions definitions).types.map (·.1)).Nodup := by
  induction definitions using List.reverseRecOn with
  | nil => simp [ofDefinitions, builtin, builtinScalars]
  | append_singleton definitions definition ih =>
    have hstep : ofDefinitions (definitions ++ [definition]) =
        (ofDefinitions definitions).add definition := by simp [ofDefinitions]
    rw [hstep]
    cases definition with
    | roots definition => exact ih
    | directive definition => exact ih
    | type definition =>
      simp only [add, keys_extendEntry]
      split_ifs with hknown
      · exact ih
      · exact ih.append (List.nodup_singleton _) (List.disjoint_singleton.mpr hknown)

theorem mem_of_field? {schema : Schema} {type field : Name} {definition : FieldDefinition}
    (h : schema.field? type field = some definition) :
    ∃ entry, (type, entry) ∈ schema.types ∧ definition ∈ entry.fields ∧ definition.name = field := by
  obtain ⟨entry, hentry, hfield⟩ := Option.bind_eq_some_iff.mp h
  obtain ⟨before, after, hsplit, -⟩ := List.lookup_eq_some_iff.mp hentry
  exact ⟨entry, by simp [hsplit], by simpa using List.mem_of_find?_eq_some hfield,
    by simpa using List.find?_some hfield⟩

theorem mem_types_iff {schema : Schema} (hkeys : (schema.types.map (·.1)).Nodup) {name : Name}
    {entry : TypeEntry} : (name, entry) ∈ schema.types ↔ schema.entry? name = some entry := by
  unfold entry?
  generalize schema.types = types at hkeys ⊢
  induction types with
  | nil => simp
  | cons first rest ih =>
    obtain ⟨known, other⟩ := first
    simp only [List.map_cons, List.nodup_cons] at hkeys
    by_cases hname : name = known
    · subst hname
      have hnone : (name, entry) ∉ rest := fun h => hkeys.1 (List.mem_map.mpr ⟨_, h, rfl⟩)
      simp [hnone, eq_comm]
    · simp [List.lookup_cons, hname, beq_false_of_ne hname, ih hkeys.2]

def Implements (schema : Schema) (name interface : Name) : Prop :=
  ∃ entry, schema.entry? name = some entry ∧ interface ∈ entry.implements

section PossibleTypes

variable {schema : Schema} {name object : Name}

theorem kind?_eq_some_iff {kind : TypeKind} :
    schema.kind? name = some kind ↔ ∃ entry, schema.entry? name = some entry ∧ entry.kind = kind :=
  Option.map_eq_some_iff

theorem mem_implementors_iff (hkeys : (schema.types.map (·.1)).Nodup) :
    object ∈ schema.implementors name ↔
      schema.kind? object = some .object ∧ schema.Implements object name := by
  simp only [implementors, List.mem_map, List.mem_filter, Prod.exists, exists_and_right, exists_eq_right,
    mem_types_iff hkeys, Bool.and_eq_true, beq_iff_eq, List.contains_iff_mem, kind?_eq_some_iff, Implements]
  constructor
  · rintro ⟨entry, hentry, hkind, hlists⟩
    exact ⟨⟨entry, hentry, hkind⟩, entry, hentry, hlists⟩
  · rintro ⟨⟨entry, hentry, hkind⟩, other, hother, hlists⟩
    obtain rfl := Option.some.inj (hentry.symm.trans hother)
    exact ⟨entry, hentry, hkind, hlists⟩

/-- The possible types of an interface are the object types that list it. -/
theorem mem_possibleTypes_interface_iff (hkeys : (schema.types.map (·.1)).Nodup)
    (hkind : schema.kind? name = some .interface) :
    object ∈ schema.possibleTypes name ↔
      schema.kind? object = some .object ∧ schema.Implements object name := by
  obtain ⟨entry, hentry, hinterface⟩ := kind?_eq_some_iff.mp hkind
  simp only [possibleTypes, hentry, hinterface, mem_implementors_iff hkeys]

/-- Only interfaces and unions have possible types, and these are object types. -/
theorem kinds_of_mem_possibleTypes (hkeys : (schema.types.map (·.1)).Nodup)
    (h : object ∈ schema.possibleTypes name) :
    (schema.kind? name).any TypeKind.isAbstract = true ∧ schema.kind? object = some .object := by
  unfold possibleTypes at h
  cases hentry : schema.entry? name with
  | none => simp [hentry] at h
  | some entry =>
    have hkind : schema.kind? name = some entry.kind := kind?_eq_some_iff.mpr ⟨entry, hentry, rfl⟩
    simp only [hentry] at h
    rw [hkind]
    split at h
    · rename_i hunion
      rw [hunion]
      exact ⟨rfl, by simpa [isObject] using (List.mem_filter.mp h).2⟩
    · rename_i hinterface
      rw [hinterface]
      exact ⟨rfl, ((mem_implementors_iff hkeys).mp h).1⟩
    · simp at h

end PossibleTypes

theorem satisfies_iff {schema : Schema} (hkeys : (schema.types.map (·.1)).Nodup) {condition object : Name} :
    schema.typeSystem.satisfies condition object = true ↔
      condition = object ∨ object ∈ schema.possibleTypes condition := by
  simp only [TypeSystem.satisfies, TypeSystem.isPossible, Bool.or_eq_true, beq_iff_eq, Bool.and_eq_true,
    decide_eq_true_eq]
  exact or_congr_right (and_iff_right_of_imp fun h => (kinds_of_mem_possibleTypes hkeys h).1)

end Schema

end QueryMask
