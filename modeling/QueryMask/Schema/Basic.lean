import QueryMask.Schema.TypeSystem

/-! Schemas: what the definitions of a document declare, by type, and the type system they give. -/

namespace QueryMask

/-- What a schema document declares about one type. -/
structure TypeEntry where
  kind : TypeKind
  fields : List FieldDefinition
  implements : List Name
  members : List Name

namespace TypeEntry

def ofKind (kind : TypeKind) : TypeEntry := ⟨kind, [], [], []⟩

/-- The last field declared under a name. -/
def field? (entry : TypeEntry) (name : Name) : Option FieldDefinition :=
  entry.fields.reverse.find? (·.name == name)

/-- Takes in what a definition or extension declares. -/
def extend (entry : TypeEntry) : TypeBody → TypeEntry
  | .object implements fields | .interface implements fields =>
    { entry with fields := entry.fields ++ fields, implements := entry.implements ++ implements }
  | .union members => { entry with members := entry.members ++ members }
  | .scalar | .enum _ | .inputObject _ => entry

end TypeEntry

/-- The kind that a definition gives to a new name. -/
def TypeBody.kind : TypeBody → TypeKind
  | .object .. => .object
  | .interface .. => .interface
  | .union _ => .union
  | .scalar | .enum _ => .leaf
  | .inputObject _ => .inputObject

/-- The declared types, in the order of their first definitions. -/
structure Schema where
  types : List (Name × TypeEntry)

namespace Schema

def builtinScalars : List Name := ["Int", "Float", "String", "Boolean", "ID"]

def builtin : Schema := ⟨builtinScalars.map (·, .ofKind .leaf)⟩

def entry? (schema : Schema) (name : Name) : Option TypeEntry := schema.types.lookup name

/-- Extends the entry of a name, which is appended if it is new. -/
def extendEntry (name : Name) (body : TypeBody) : List (Name × TypeEntry) → List (Name × TypeEntry)
  | [] => [(name, (TypeEntry.ofKind body.kind).extend body)]
  | (known, entry) :: rest =>
    if name == known then (known, entry.extend body) :: rest
    else (known, entry) :: extendEntry name body rest

/-- Extending one entry leaves the others alone. -/
theorem lookup_extendEntry_of_ne {name other : Name} (h : other ≠ name) (body : TypeBody)
    (types : List (Name × TypeEntry)) :
    (extendEntry name body types).lookup other = types.lookup other := by
  have hother : (other == name) = false := beq_false_of_ne h
  induction types with
  | nil => simp [extendEntry, List.lookup_cons, hother]
  | cons entry rest ih =>
    obtain ⟨known, entry⟩ := entry
    by_cases hk : name = known
    · subst hk
      simp [extendEntry, List.lookup_cons, hother]
    · simp [extendEntry, hk, List.lookup_cons, ih]

/-- The extended entry is the one that was there, or else a new one. -/
theorem lookup_extendEntry_self (name : Name) (body : TypeBody) (types : List (Name × TypeEntry)) :
    (extendEntry name body types).lookup name =
      some (((types.lookup name).getD (.ofKind body.kind)).extend body) := by
  induction types with
  | nil => simp [extendEntry]
  | cons entry rest ih =>
    obtain ⟨known, entry⟩ := entry
    by_cases hk : name = known
    · subst hk
      simp [extendEntry]
    · simp [extendEntry, List.lookup_cons, beq_false_of_ne hk, ih]

/-- Takes in one definition. Only definitions of types count. -/
def add (schema : Schema) : SchemaDefinition → Schema
  | .type definition => ⟨extendEntry definition.name definition.body schema.types⟩
  | .roots _ | .directive _ => schema

def ofDefinitions (definitions : List SchemaDefinition) : Schema :=
  definitions.foldl add builtin

/-- The kind that the first definition of a name gives it. -/
def kind? (schema : Schema) (name : Name) : Option TypeKind :=
  (schema.entry? name).map (·.kind)

def isObject (schema : Schema) (name : Name) : Bool := schema.kind? name == some .object

/-- The object types, in the order of their first definitions. -/
def objectTypes (schema : Schema) : List Name :=
  (schema.types.filter (·.2.kind == .object)).map (·.1)

def implementors (schema : Schema) (interface : Name) : List Name :=
  (schema.types.filter fun type =>
    type.2.kind == .object && type.2.implements.contains interface).map (·.1)

def possibleTypes (schema : Schema) (name : Name) : List Name :=
  match schema.entry? name with
  | none => []
  | some entry =>
    match entry.kind with
    | .union => entry.members.filter schema.isObject
    | .interface => schema.implementors name
    | _ => []

/-- The last declaration of a field, whatever the kind of the type. -/
def field? (schema : Schema) (type field : Name) : Option FieldDefinition :=
  (schema.entry? type).bind (·.field? field)

theorem mem_objectTypes {schema : Schema} {name : Name}
    (h : schema.kind? name = some .object) : name ∈ schema.objectTypes := by
  obtain ⟨entry, hentry, hkind⟩ := Option.map_eq_some_iff.mp h
  obtain ⟨before, after, hsplit, -⟩ := List.lookup_eq_some_iff.mp hentry
  simp [objectTypes, hsplit, hkind]

def typeSystem (schema : Schema) : TypeSystem where
  kind? := schema.kind?
  possibleTypes := schema.possibleTypes
  field? := schema.field?
  objectTypes := schema.objectTypes

theorem listed (schema : Schema) : schema.typeSystem.Listed := fun _ => mem_objectTypes

end Schema

end QueryMask
