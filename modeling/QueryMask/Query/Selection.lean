import QueryMask.Value

/-! Selection sets. -/

namespace QueryMask

/-- One selection. A field without selections of its own has an empty list of them. -/
inductive Selection where
  | field (alias? : Option Name) (name : Name) (arguments : List Argument)
      (directives : List Directive) (selections : List Selection)
  | spread (fragment : Name) (directives : List Directive)
  | inline (condition? : Option Name) (directives : List Directive) (selections : List Selection)

abbrev SelectionSet := List Selection

theorem sizeOf_rest_lt (selection : Selection) (rest : SelectionSet) :
    sizeOf rest < sizeOf (selection :: rest) := by
  simp only [List.cons.sizeOf_spec]
  omega

theorem sizeOf_inline_lt (condition? : Option Name) (directives : List Directive)
    (selections rest : SelectionSet) :
    sizeOf selections < sizeOf (Selection.inline condition? directives selections :: rest) := by
  simp only [List.cons.sizeOf_spec, Selection.inline.sizeOf_spec]
  omega

/-- The key under which a field answers: its alias, or else its name. -/
def responseKey (alias? : Option Name) (name : Name) : Name := alias?.getD name

def conditionText : Option Name → String
  | none => "..."
  | some condition => "... on " ++ condition

mutual

/-- The selection on one line, without arguments and directives. -/
def Selection.outline : Selection → String
  | .field alias? name _ _ selections =>
    (alias?.elim "" (· ++ ": ")) ++ name ++
      (if selections.isEmpty then "" else " \x7b " ++ SelectionSet.outline selections ++ " \x7d")
  | .spread fragment _ => "..." ++ fragment
  | .inline condition? _ selections =>
    conditionText condition? ++ " \x7b " ++ SelectionSet.outline selections ++ " \x7d"

def SelectionSet.outline : List Selection → String
  | [] => ""
  | [selection] => selection.outline
  | selection :: rest => selection.outline ++ " " ++ SelectionSet.outline rest

end

mutual

/-- The number of selection sets under the fields of a selection, at any depth. -/
def Selection.nestedSets : Selection → Nat
  | .field _ _ _ _ selections => 1 + SelectionSet.nestedSets selections
  | .spread _ _ => 0
  | .inline _ _ selections => SelectionSet.nestedSets selections

def SelectionSet.nestedSets : List Selection → Nat
  | [] => 0
  | selection :: rest => selection.nestedSets + SelectionSet.nestedSets rest

end

end QueryMask
