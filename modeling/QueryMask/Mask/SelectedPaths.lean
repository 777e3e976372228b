import QueryMask.Mask.Policy

/-! The paths that a selection set selects on an object type. -/

namespace QueryMask

def segment? (system : TypeSystem) (policy : Policy) (parent : Name) (field : AppliedField) :
    Run (Option String) :=
  match policy.naming? with
  | none => pure (some field.name)
  | some naming => do
    Run.call (.naming parent field.definition.name)
    return naming system parent field.definition

def AppliedField.toAbstract (field : AppliedField) (system : TypeSystem) (parent : Name)
    (kind : TypeKind) : AbstractField where
  system := system
  parent := parent
  definition := field.definition
  type := field.returnType
  kind := kind
  possibleTypes := system.possibleTypes field.returnType
  selections := field.selections

/-- The paths below a field that returns a composite type and has selections. -/
def subPaths (system : TypeSystem) (policy : Policy) (compute : SelectionSet → Name → Run (List Path))
    (parent : Name) (field : AppliedField) (kind : TypeKind) : Run (List Path) :=
  if kind = .object then compute field.selections field.returnType
  else match policy.expansion? with
    | none => pure []
    | some expand => do
      Run.call (.expansion parent field.definition.name)
      (expand (field.toAbstract system parent kind)).run (compute field.selections)

def fieldPaths (system : TypeSystem) (policy : Policy)
    (compute : SelectionSet → Name → Run (List Path)) (parent : Name) (field : AppliedField) :
    Run (List Path) := do
  match ← segment? system policy parent field with
  | none => return []
  | some segment =>
    match system.kind? field.returnType with
    | none => .ofExcept (.error (.unknownType field.returnType))
    | some kind =>
      if kind.isComposite && !field.selections.isEmpty then do
        let below ← subPaths system policy compute parent field kind
        return below.map (Path.join segment)
      else return [segment]

/--
Depth-first document order, with at most `depth` selection sets inside one another. The fields of a
selection set are all determined before the policy is asked about one.
-/
def pathsWithin (system : TypeSystem) (fragments : Fragments) (policy : Policy) :
    (depth : Nat) → SelectionSet → (type : Name) → Run (List Path)
  | 0, _, _ => .ofExcept (.error .endlessSelection)
  | depth + 1, selections, type => do
    let fields ← Run.ofExcept (appliedFields system fragments type selections)
    Run.concatMap (fieldPaths system policy (pathsWithin system fragments policy depth) type) fields

/-- The number of selection sets under the fields of some fragments, at any depth. -/
def Fragments.nestedSets : Fragments → Nat
  | [] => 0
  | (_, fragment) :: rest =>
    SelectionSet.nestedSets fragment.selections + Fragments.nestedSets rest

/-- The number of selection sets: the given one, and all those under fields of it and of fragments. -/
def setCount (fragments : Fragments) (selections : SelectionSet) : Nat :=
  1 + SelectionSet.nestedSets selections + Fragments.nestedSets fragments

/--
Deep enough for every selection that has an end, if no fragment reaches itself or all object types are listed: a
selection set that comes up again for the same type inside itself comes up for ever.
-/
def depthBound (system : TypeSystem) (fragments : Fragments) (selections : SelectionSet) : Nat :=
  (fragments.length + 1) * setCount fragments selections * (system.objectTypes.length + 1)

def pathsRun (system : TypeSystem) (fragments : Fragments) (policy : Policy) (selections : SelectionSet)
    (type : Name) : Run (List Path) :=
  pathsWithin system fragments policy (depthBound system fragments selections) selections type

/-- The paths of a selection set on an object type. -/
def selectedPaths (system : TypeSystem) (fragments : Fragments) (policy : Policy)
    (selections : SelectionSet) (type : Name) : Except MaskError (List Path) :=
  (pathsRun system fragments policy selections type).outcome

end QueryMask
