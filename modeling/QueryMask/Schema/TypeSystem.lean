import QueryMask.Schema.Definition

/-! Type systems: the lookups into a schema that selections are read against. -/

namespace QueryMask

/-- Kinds of named types. Scalars and enums are leaves. -/
inductive TypeKind where
  | object
  | interface
  | union
  | leaf
  | inputObject
  deriving DecidableEq, Repr

namespace TypeKind

/-- Composite types carry selection sets. -/
def isComposite : TypeKind → Bool
  | object | interface | union => true
  | leaf | inputObject => false

/-- Abstract types stand for one of several object types. -/
def isAbstract : TypeKind → Bool
  | interface | union => true
  | object | leaf | inputObject => false

def text : TypeKind → String
  | object => "object"
  | interface => "interface"
  | union => "union"
  | leaf => "leaf"
  | inputObject => "input_object"

def ofText? : String → Option TypeKind
  | "object" => some object
  | "interface" => some interface
  | "union" => some union
  | "leaf" => some leaf
  | "input_object" => some inputObject
  | _ => none

end TypeKind

/--
Lookups into a schema. The number of the listed object types bounds runs on fragments that reach themselves; nothing
else depends on the list.
-/
structure TypeSystem where
  kind? : Name → Option TypeKind
  possibleTypes : Name → List Name
  field? : (type field : Name) → Option FieldDefinition
  objectTypes : List Name

namespace TypeSystem

def isPossible (system : TypeSystem) (abstract object : Name) : Bool :=
  object ∈ system.possibleTypes abstract

/-- Whether a value of an object type satisfies a type condition. -/
def satisfies (system : TypeSystem) (condition object : Name) : Bool :=
  condition == object ||
    ((system.kind? condition).any TypeKind.isAbstract && system.isPossible condition object)

def admits (system : TypeSystem) (condition? : Option Name) (object : Name) : Bool :=
  condition?.all (system.satisfies · object)

/-- All object types are listed, so there are finitely many. -/
def Listed (system : TypeSystem) : Prop :=
  ∀ name, system.kind? name = some .object → name ∈ system.objectTypes

/-- Answers that replace those of a system, by type name. -/
structure Overrides where
  kinds : List (Name × Option TypeKind)
  possible : List (Name × List Name)

def Overrides.kind? (overrides : Overrides) (system : TypeSystem) (name : Name) :
    Option TypeKind :=
  (overrides.kinds.lookup name).getD (system.kind? name)

/-- The system with some answers replaced; field definitions stay as they are. -/
def override (system : TypeSystem) (overrides : Overrides) : TypeSystem where
  kind? := overrides.kind? system
  possibleTypes name := (overrides.possible.lookup name).getD (system.possibleTypes name)
  field? := system.field?
  objectTypes := overrides.kinds.map (·.1) ++ system.objectTypes

theorem Listed.override {system : TypeSystem} (h : system.Listed) (overrides : Overrides) :
    (system.override overrides).Listed := by
  intro name hname
  change (overrides.kinds.lookup name).getD (system.kind? name) = some .object at hname
  cases hlookup : overrides.kinds.lookup name with
  | none =>
    rw [hlookup] at hname
    exact List.mem_append_right _ (h name hname)
  | some kind? =>
    obtain ⟨before, after, hsplit, -⟩ := List.lookup_eq_some_iff.mp hlookup
    simp [TypeSystem.override, hsplit]

end TypeSystem

end QueryMask
