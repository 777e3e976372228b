import QueryMask.TypeRef
import QueryMask.Value

/-! Definitions of a schema document. -/

namespace QueryMask

inductive OperationKind where
  | query
  | mutation
  | subscription
  deriving DecidableEq, Repr

def OperationKind.keyword : OperationKind → String
  | query => "query"
  | mutation => "mutation"
  | subscription => "subscription"

/-- An argument of a field or directive, or a field of an input object. -/
structure InputValue where
  description? : Option String
  name : Name
  type : TypeRef
  default? : Option Value
  directives : List Directive

structure FieldDefinition where
  description? : Option String
  name : Name
  arguments : List InputValue
  type : TypeRef
  directives : List Directive

def FieldDefinition.directive? (field : FieldDefinition) (name : Name) : Option Directive :=
  field.directives.find? (·.name == name)

structure EnumValue where
  description? : Option String
  name : Name
  directives : List Directive

/-- What the definition of a type declares, by the kind of the type. -/
inductive TypeBody where
  | scalar
  | object (implements : List Name) (fields : List FieldDefinition)
  | interface (implements : List Name) (fields : List FieldDefinition)
  | union (members : List Name)
  | enum (values : List EnumValue)
  | inputObject (fields : List InputValue)

/-- The definition of a type, or an extension of it. -/
structure TypeDefinition where
  isExtension : Bool
  description? : Option String
  name : Name
  directives : List Directive
  body : TypeBody

/-- The definition of the root operations, or an extension of it. -/
structure RootDefinition where
  isExtension : Bool
  directives : List Directive
  roots : List (OperationKind × Name)

structure DirectiveDefinition where
  description? : Option String
  name : Name
  arguments : List InputValue
  repeatable : Bool
  locations : List String

inductive SchemaDefinition where
  | roots (definition : RootDefinition)
  | type (definition : TypeDefinition)
  | directive (definition : DirectiveDefinition)

end QueryMask
