import QueryMask.Decimal
import QueryMask.Name

/-! Argument values and directives. -/

namespace QueryMask

inductive Value where
  | var (name : Name)
  | number (literal : Decimal)
  | string (text : String)
  | boolean (truth : Bool)
  | null
  | enum (name : Name)
  | list (items : List Value)
  | object (entries : List (Name × Value))

abbrev Argument := Name × Value

mutual

/-- Whether every number of a value is finite as a product. -/
def Value.isFinite : Value → Bool
  | .number literal => literal.isFiniteProduct
  | .list items => Value.allFinite items
  | .object entries => Value.allEntriesFinite entries
  | _ => true

def Value.allFinite : List Value → Bool
  | [] => true
  | value :: rest => value.isFinite && Value.allFinite rest

def Value.allEntriesFinite : List Argument → Bool
  | [] => true
  | (_, value) :: rest => value.isFinite && Value.allEntriesFinite rest

end

/-- A directive, such as `@fieldMask(skip: true)`. -/
structure Directive where
  name : Name
  arguments : List Argument

namespace Directive

def argument? (directive : Directive) (name : Name) : Option Value :=
  directive.arguments.lookup name

def isFinite (directive : Directive) : Bool :=
  Value.allEntriesFinite directive.arguments

end Directive

end QueryMask
