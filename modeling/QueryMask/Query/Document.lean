import QueryMask.Error
import QueryMask.Query.Selection

/-! Query documents: operations and fragments. -/

namespace QueryMask

structure VariableDefinition where
  name : Name
  type : TypeRef
  directives : List Directive
  default? : Option Value

structure Operation where
  kind : OperationKind
  variableDefinitions : List VariableDefinition
  directives : List Directive
  selections : SelectionSet

/-- A fragment, with the type that its selections are about. -/
structure Fragment where
  condition : Name
  directives : List Directive
  selections : SelectionSet

abbrev Fragments := List (Name × Fragment)

def Fragments.find? (fragments : Fragments) (name : Name) : Option Fragment := fragments.lookup name

def Fragments.inactive (fragments : Fragments) (active : List Name) : Nat :=
  fragments.countP fun entry => !active.contains entry.1

/-- Entering a fragment leaves fewer fragments to enter. -/
theorem Fragments.inactive_cons_lt {fragments : Fragments} {active : List Name} {name : Name}
    {fragment : Fragment} (hfind : fragments.find? name = some fragment)
    (hnew : active.contains name = false) :
    fragments.inactive (name :: active) < fragments.inactive active := by
  obtain ⟨before, after, hsplit, -⟩ := List.lookup_eq_some_iff.mp hfind
  have hmono : ∀ entries : Fragments,
      Fragments.inactive entries (name :: active) ≤ Fragments.inactive entries active := by
    intro entries
    apply List.countP_mono_left
    intro entry _ h
    simp_all
  have hb := hmono before
  have ha := hmono after
  have hname : name ∉ active := by simpa using hnew
  simp only [inactive] at hb ha ⊢
  rw [hsplit, List.countP_append, List.countP_append, List.countP_cons, List.countP_cons]
  simp [hname] at hb ha ⊢
  omega

/-- The operations of a document: one without a name, or any number with names. -/
inductive Operations where
  | anonymous (operation : Operation)
  | named (operations : List (Name × Operation))

namespace Operations

def toList : Operations → List (Option Name × Operation)
  | anonymous operation => [(none, operation)]
  | named operations => operations.map fun entry => (some entry.1, entry.2)

/-- The operation that a name selects. An operation without a name answers to every name. -/
def withName (operations : Operations) (name : Name) : Except QueryFault Operation :=
  match operations with
  | anonymous operation => .ok operation
  | named entries =>
    match entries.lookup name with
    | some operation => .ok operation
    | none => .error (.unknownOperation name)

/-- The operation that is selected without a name, which must be the only one. -/
def only : Operations → Except QueryFault Operation
  | anonymous operation => .ok operation
  | named [] => .error (.unknownOperation "")
  | named [(_, operation)] => .ok operation
  | named _ => .error .operationNameRequired

def select (operations : Operations) : Option Name → Except QueryFault Operation
  | none => operations.only
  | some name => operations.withName name

end Operations

structure Document where
  operations : Operations
  fragments : Fragments

inductive QueryDefinition where
  | operation (name? : Option Name) (operation : Operation)
  | fragment (name : Name) (fragment : Fragment)

namespace Document

def rootSelections (document : Document) (operation? : Option Name) :
    Except MaskError SelectionSet :=
  match document.operations.select operation? with
  | .ok operation => .ok operation.selections
  | .error fault => .error (.invalidQuery fault)

end Document

end QueryMask
