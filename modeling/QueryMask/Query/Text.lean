import QueryMask.Grammar.Query
import QueryMask.Reading

/-! A reader of query documents that calls no library: a grammar, and limits that a well-formed text can exceed. -/

namespace QueryMask

/-- Why a text is no query document. -/
inductive Document.TextFault where
  | malformed
  | nestingLimit
  | severalOperations
  | repeatedOperation (name : Name)
  | repeatedFragment (name : Name)
  | noOperation
  deriving DecidableEq, Repr

/-- Syntax errors are not told apart. -/
def Document.TextFault.text : TextFault → String
  | malformed => "<syntax error>"
  | nestingLimit => "recursion limit exceeded."
  | severalOperations => "document contains multiple operations"
  | repeatedOperation name => "operation " ++ name ++ " is defined twice"
  | repeatedFragment name => "fragment " ++ name ++ " is defined twice"
  | noOperation => "document does not contain an operation"

/-- How deep selection sets may lie inside the outermost one of a definition. -/
def nestingAllowance : Nat := 64

def numberFault? (given : List Argument) (applied : List Directive) : Option Document.TextFault :=
  if Value.allEntriesFinite given && applied.all Directive.isFinite then none else some .malformed

mutual

/-- The first fault of a selection in the order of the text. -/
def Selection.fault? (allowance : Nat) : Selection → Option Document.TextFault
  | .field _ _ given applied selections =>
    (numberFault? given applied).or
      (if selections.isEmpty then none
      else if allowance = 0 then some .nestingLimit
      else SelectionSet.fault? (allowance - 1) selections)
  | .spread _ applied => numberFault? [] applied
  | .inline _ applied selections =>
    (numberFault? [] applied).or
      (if allowance = 0 then some .nestingLimit
      else SelectionSet.fault? (allowance - 1) selections)

def SelectionSet.fault? (allowance : Nat) : List Selection → Option Document.TextFault
  | [] => none
  | selection :: rest => (selection.fault? allowance).or (SelectionSet.fault? allowance rest)

end

def VariableDefinition.fault? (definition : VariableDefinition) : Option Document.TextFault :=
  (numberFault? [] definition.directives).or
    (if definition.default?.all Value.isFinite then none else some .malformed)

def QueryDefinition.fault? : QueryDefinition → Option Document.TextFault
  | operation _ definition =>
    (definition.variableDefinitions.findSome? VariableDefinition.fault?).or <|
      (numberFault? [] definition.directives).or <|
        SelectionSet.fault? nestingAllowance definition.selections
  | fragment _ definition =>
    (numberFault? [] definition.directives).or
      (SelectionSet.fault? nestingAllowance definition.selections)

/-- The definitions of a text that is well formed and within the limits. -/
def queryDefinitions (text : String) : Except Document.TextFault (List QueryDefinition) :=
  match Grammar.queryDocument.readAll? text with
  | none => .error .malformed
  | some definitions =>
    match definitions.findSome? QueryDefinition.fault? with
    | some fault => .error fault
    | none => .ok definitions

namespace Document

structure Partial where
  operations? : Option Operations
  fragments : Fragments

/-- Takes in one definition, unless it repeats a name or an operation stands beside one without a name. -/
def Partial.add (met : Partial) : QueryDefinition → Except TextFault Partial
  | .operation none operation =>
    match met.operations? with
    | none => .ok { met with operations? := some (.anonymous operation) }
    | some _ => .error .severalOperations
  | .operation (some name) operation =>
    match met.operations? with
    | none => .ok { met with operations? := some (.named [(name, operation)]) }
    | some (.anonymous _) => .error .severalOperations
    | some (.named operations) =>
      if (operations.lookup name).isSome then .error (.repeatedOperation name)
      else .ok { met with operations? := some (.named (operations ++ [(name, operation)])) }
  | .fragment name fragment =>
    if (met.fragments.find? name).isSome then .error (.repeatedFragment name)
    else .ok { met with fragments := met.fragments ++ [(name, fragment)] }

/-- The document with the given definitions, which must hold an operation. -/
def ofDefinitions (definitions : List QueryDefinition) : Except TextFault Document := do
  let met ← definitions.foldlM Partial.add ⟨none, []⟩
  match met.operations? with
  | none => .error .noOperation
  | some operations => .ok ⟨operations, met.fragments⟩

def reader : TextReader Document := fun text =>
  (queryDefinitions text >>= ofDefinitions).mapError TextFault.text

def ofText : String → Except MaskError Document := read reader

end Document

end QueryMask
