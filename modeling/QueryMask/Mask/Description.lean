import QueryMask.Mask.Expansion
import QueryMask.Text.Quoted

/-! Descriptions of policies, of selections and of abstract fields. -/

namespace QueryMask

def truthText (truth : Bool) : String := if truth then "true" else "false"

/-- Which parts a policy has. -/
def Policy.description (policy : Policy) : String :=
  "FieldMaskOptions \x7b field_names: " ++ truthText policy.naming?.isSome ++
    ", abstract_types: " ++ truthText policy.expansion?.isSome ++ " \x7d"

/-- How many selections a selection set has at its top. -/
def SelectionSet.description (selections : SelectionSet) : String :=
  "ResolveContext \x7b selections: " ++ toString selections.length ++ ", .. \x7d"

def TypeKind.title : TypeKind → String
  | object => "Object"
  | interface => "Interface"
  | union => "Union"
  | leaf => "Leaf"
  | inputObject => "InputObject"

namespace AbstractField

/-- All on one line, without the system and the selections. -/
def description (field : AbstractField) : String :=
  "AbstractTypeContext \x7b type_name: " ++ quoted field.type ++
    ", category: " ++ field.kind.title ++
    ", possible_types: [" ++ ", ".intercalate (field.possibleTypes.map quoted) ++
    "], parent_type: " ++ quoted field.parent ++
    ", field: Name(" ++ quoted field.definition.name ++ "), .. \x7d"

/-- One entry for each thing that is known. -/
def entries (field : AbstractField) : List String :=
  ["type=" ++ field.type,
   "category=" ++ field.kind.text,
   "possible=" ++ "|".intercalate field.possibleTypes,
   "parent=" ++ field.parent,
   "field=" ++ field.definition.name,
   "selection=" ++ SelectionSet.outline field.selections,
   "known=" ++ truthText (field.system.kind? field.type).isSome]

end AbstractField

namespace AbstractExpansion

/-- The entries of the field as its paths. -/
def entries : AbstractExpansion := fun field => .done (.ok field.entries)

/-- The description of the field as its only path. -/
def description : AbstractExpansion := fun field => .done (.ok [field.description])

end AbstractExpansion

end QueryMask
