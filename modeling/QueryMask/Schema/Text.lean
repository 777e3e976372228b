import QueryMask.Grammar.Schema
import QueryMask.Reading

/-! A reader of schema documents that calls no library: a grammar, and rules that a well-formed text can break. -/

namespace QueryMask

inductive Schema.TextFault where
  | malformed
  | repeatedRoot (kind : OperationKind)
  | missingQueryRoot
  deriving DecidableEq, Repr

/-- Syntax errors are not told apart. -/
def Schema.TextFault.text : TextFault → String
  | malformed => "<syntax error>"
  | repeatedRoot kind => "multiple " ++ kind.keyword ++ " roots in schema definition"
  | missingQueryRoot => "schema definition is missing query root"

def InputValue.isFinite (input : InputValue) : Bool :=
  input.default?.all Value.isFinite && input.directives.all Directive.isFinite

def FieldDefinition.isFinite (field : FieldDefinition) : Bool :=
  field.arguments.all InputValue.isFinite && field.directives.all Directive.isFinite

def TypeBody.isFinite : TypeBody → Bool
  | .scalar | .union _ => true
  | .object _ fields | .interface _ fields => fields.all FieldDefinition.isFinite
  | .enum values => values.all fun value => value.directives.all Directive.isFinite
  | .inputObject fields => fields.all InputValue.isFinite

/-- The first kind that is given a root twice, when some kinds have one already. -/
def repeatedRoot? (taken : List OperationKind) : List (OperationKind × Name) → Option OperationKind
  | [] => none
  | (kind, _) :: rest => if kind ∈ taken then some kind else repeatedRoot? (kind :: taken) rest

namespace RootDefinition

/-- A fault of the roots: a kind with two, or a definition without a query root. -/
def rootFault? (definition : RootDefinition) : Option Schema.TextFault :=
  match repeatedRoot? [] definition.roots with
  | some kind => some (.repeatedRoot kind)
  | none =>
    if definition.isExtension || definition.roots.any (·.1 == .query) then none
    else some .missingQueryRoot

end RootDefinition

def SchemaDefinition.fault? : SchemaDefinition → Option Schema.TextFault
  | .roots definition =>
    if definition.directives.all Directive.isFinite then definition.rootFault? else some .malformed
  | .type definition =>
    if definition.directives.all Directive.isFinite && definition.body.isFinite then none
    else some .malformed
  | .directive definition =>
    if definition.arguments.all InputValue.isFinite then none else some .malformed

/-- The definitions of a text that is well formed and keeps the rules. -/
def schemaDefinitions (text : String) : Except Schema.TextFault (List SchemaDefinition) :=
  match Grammar.schemaDocument.readAll? text with
  | none => .error .malformed
  | some definitions =>
    match definitions.findSome? SchemaDefinition.fault? with
    | some fault => .error fault
    | none => .ok definitions

def Schema.reader : TextReader (List SchemaDefinition) := fun text =>
  (schemaDefinitions text).mapError Schema.TextFault.text

def Schema.ofText : String → Except MaskError Schema := read reader

end QueryMask
