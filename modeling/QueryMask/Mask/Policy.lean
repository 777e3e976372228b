import QueryMask.Mask.Run
import QueryMask.Path
import QueryMask.Query.AppliedField

/-! Policies of path building: how fields are named, and how abstract fields are expanded. -/

namespace QueryMask

/-- Gives the path segment of a field on a parent type; a field without one is left out. -/
abbrev FieldNaming := TypeSystem → (parent : Name) → FieldDefinition → Option String

/-- A field that returns an interface or union and has selections. -/
structure AbstractField where
  system : TypeSystem
  parent : Name
  definition : FieldDefinition
  type : Name
  kind : TypeKind
  possibleTypes : List Name
  selections : SelectionSet

/--
An expansion asks for the paths of the selections on concrete types, one after another, sees each
answer, and ends with paths of its own or a failure.
-/
inductive Expansion where
  | done (answer : Except MaskError (List Path))
  | ask (type : Name) (next : Except MaskError (List Path) → Expansion)

/-- Decides what an abstract field contributes below its segment. -/
abbrev AbstractExpansion := AbstractField → Expansion

def Expansion.run (compute : Name → Run (List Path)) : Expansion → Run (List Path)
  | done answer => .ofExcept answer
  | ask type next =>
    let answer := compute type
    let later := (next answer.outcome).run compute
    ⟨answer.calls ++ later.calls, later.outcome⟩

/-- A policy. Without naming, fields keep their names; without expansion, abstract fields
contribute nothing. -/
structure Policy where
  naming? : Option FieldNaming
  expansion? : Option AbstractExpansion

def Policy.plain : Policy := ⟨none, none⟩

end QueryMask
