import QueryMask.Query.Document
import QueryMask.Schema.TypeSystem

/-! The fields of a selection set that apply to an object type, with fragments expanded in place. -/

namespace QueryMask

structure AppliedField where
  name : Name
  definition : FieldDefinition
  selections : SelectionSet

/-- The type that the field returns, wrappers removed. -/
def AppliedField.returnType (field : AppliedField) : Name := field.definition.type.core

/--
The fields of `selections` that apply to values of the object type `type`, in document order, inside
the fragments `active`. Each fragment that is entered joins the active ones, so only finitely many
can be entered inside one another.
-/
def collectFields (system : TypeSystem) (fragments : Fragments) (type : Name) (active : List Name) :
    SelectionSet → Except MaskError (List AppliedField)
  | [] => .ok []
  | .field _ name _ _ selections :: rest =>
    if name.isReserved then collectFields system fragments type active rest
    else match system.field? type name with
      | none => .error (.unknownField type name)
      | some definition => do
        let later ← collectFields system fragments type active rest
        return ⟨name, definition, selections⟩ :: later
  | .spread name _ :: rest =>
    match _hfind : fragments.find? name with
    | none => .error (.unknownFragment name)
    | some fragment =>
      if system.satisfies fragment.condition type then
        if _hactive : active.contains name then .error (.fragmentCycle name)
        else do
          let body ← collectFields system fragments type (name :: active) fragment.selections
          let later ← collectFields system fragments type active rest
          return body ++ later
      else collectFields system fragments type active rest
  | .inline condition? _ selections :: rest =>
    if system.admits condition? type then do
      let body ← collectFields system fragments type active selections
      let later ← collectFields system fragments type active rest
      return body ++ later
    else collectFields system fragments type active rest
termination_by selections => (fragments.inactive active, sizeOf selections)
decreasing_by
  · exact .right _ (sizeOf_rest_lt _ _)
  · exact .right _ (sizeOf_rest_lt _ _)
  · exact .left _ _ (Fragments.inactive_cons_lt _hfind (by simpa using _hactive))
  · exact .right _ (sizeOf_rest_lt _ _)
  · exact .right _ (sizeOf_rest_lt _ _)
  · exact .right _ (sizeOf_inline_lt _ _ _ _)
  · exact .right _ (sizeOf_rest_lt _ _)
  · exact .right _ (sizeOf_rest_lt _ _)

section Equations

variable {system : TypeSystem} {fragments : Fragments} {type name : Name} {active : List Name}
  {directives : List Directive} {rest : SelectionSet}

theorem collectFields_nil : collectFields system fragments type active [] = .ok [] := by
  simp [collectFields]

theorem collectFields_spread_of_unknown (h : fragments.find? name = none) :
    collectFields system fragments type active (.spread name directives :: rest) =
      .error (.unknownFragment name) := by
  rw [collectFields]
  split <;> simp_all

theorem collectFields_spread_of_known {fragment : Fragment}
    (h : fragments.find? name = some fragment) :
    collectFields system fragments type active (.spread name directives :: rest) =
      if system.satisfies fragment.condition type then
        if active.contains name then .error (.fragmentCycle name)
        else do
          let body ← collectFields system fragments type (name :: active) fragment.selections
          let later ← collectFields system fragments type active rest
          return body ++ later
      else collectFields system fragments type active rest := by
  rw [collectFields]
  split
  · simp_all
  · rename_i found hfound
    obtain rfl : found = fragment := Option.some.inj (hfound.symm.trans h)
    simp only [dite_eq_ite]

end Equations

def appliedFields (system : TypeSystem) (fragments : Fragments) (type : Name)
    (selections : SelectionSet) : Except MaskError (List AppliedField) :=
  if system.kind? type = some .object then collectFields system fragments type [] selections
  else .error (.unknownType type)

end QueryMask
