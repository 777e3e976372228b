import QueryMask.Mask.Policy
import QueryMask.Text.Replace

/-! Ready-made namings of fields. -/

namespace QueryMask

namespace FieldNaming

/-- What a directive says about its field: `skip: true` leaves it out, a string `name` renames it. -/
def ofDirective (directive : Directive) (declared : Name) : Option String :=
  match directive.argument? "skip" with
  | some (.boolean true) => none
  | _ =>
    match directive.argument? "name" with
    | some (.string name) => some name
    | _ => some declared

/-- Follows the first directive of a name; fields without one keep their names. -/
def byDirective (directive : Name) : FieldNaming := fun _ _ field =>
  match field.directive? directive with
  | none => some field.name
  | some found => ofDirective found field.name

/--
Looks up the field under its parent type, then under a star for any parent. A listed segment is
used, a field listed without one is left out, and all others keep their names.
-/
def byTable (table : List (String × Option String)) : FieldNaming := fun _ parent field =>
  match table.lookup (parent ++ "." ++ field.name) with
  | some segment? => segment?
  | none => (table.lookup ("*." ++ field.name)).getD (some field.name)

def fillSlot (slot text template : String) : String :=
  String.ofList (replaceWord '\x7b' (slot ++ "\x7d").toList text.toList template.toList)

/-- Fills the slots for the parent, the field, its type and the kind of that type. -/
def byTemplate (template : String) : FieldNaming := fun system parent field =>
  let kind := (system.kind? field.type.core).elim "none" TypeKind.text
  some <| fillSlot "category" kind <| fillSlot "type" field.type.text <|
    fillSlot "field" field.name <| fillSlot "parent" parent template

end FieldNaming

end QueryMask
