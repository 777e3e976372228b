import QueryMask.Path
import QueryMask.Query.Document

/-! Fields addressed by their response paths, all occurrences merged. -/

namespace QueryMask

/--
The selection sets of the fields that answer to `key`, in document order, inside the fragments
`active`. Type conditions are not looked at; undefined and active fragments are passed over.
-/
def occurrences (fragments : Fragments) (key : Name) (active : List Name) :
    SelectionSet → List SelectionSet
  | [] => []
  | .field alias? name _ _ selections :: rest =>
    if responseKey alias? name == key then selections :: occurrences fragments key active rest
    else occurrences fragments key active rest
  | .spread name _ :: rest =>
    match _hfind : fragments.find? name with
    | none => occurrences fragments key active rest
    | some fragment =>
      if _hactive : active.contains name then occurrences fragments key active rest
      else occurrences fragments key (name :: active) fragment.selections ++
        occurrences fragments key active rest
  | .inline _ _ selections :: rest =>
    occurrences fragments key active selections ++ occurrences fragments key active rest
termination_by selections => (fragments.inactive active, sizeOf selections)
decreasing_by
  · exact .right _ (sizeOf_rest_lt _ _)
  · exact .right _ (sizeOf_rest_lt _ _)
  · exact .right _ (sizeOf_rest_lt _ _)
  · exact .right _ (sizeOf_rest_lt _ _)
  · exact .left _ _ (Fragments.inactive_cons_lt _hfind (by simpa using _hactive))
  · exact .right _ (sizeOf_rest_lt _ _)
  · exact .right _ (sizeOf_inline_lt _ _ _ _)
  · exact .right _ (sizeOf_rest_lt _ _)

theorem occurrences_spread_of_unknown {fragments : Fragments} {key name : Name} {active : List Name}
    {directives : List Directive} {rest : SelectionSet} (h : fragments.find? name = none) :
    occurrences fragments key active (.spread name directives :: rest) =
      occurrences fragments key active rest := by
  rw [occurrences]
  split <;> simp_all

theorem occurrences_spread_of_known {fragments : Fragments} {key name : Name} {active : List Name}
    {directives : List Directive} {rest : SelectionSet} {fragment : Fragment}
    (h : fragments.find? name = some fragment) :
    occurrences fragments key active (.spread name directives :: rest) =
      if active.contains name then occurrences fragments key active rest
      else occurrences fragments key (name :: active) fragment.selections ++
        occurrences fragments key active rest := by
  rw [occurrences]
  split
  · simp_all
  · rename_i found hfound
    obtain rfl : found = fragment := Option.some.inj (hfound.symm.trans h)
    simp only [dite_eq_ite]

/-- Follows response keys down from several selection sets; each key must answer somewhere. -/
def follow? (fragments : Fragments) : List Name → List SelectionSet → Option (List SelectionSet)
  | [], current => some current
  | key :: keys, current =>
    match current.flatMap (occurrences fragments key []) with
    | [] => none
    | found => follow? fragments keys found

/-- The selections of all fields at a response path of the selected operation, one after another. -/
def Document.selectionsAt (document : Document) (operation? : Option Name) (path : Path) :
    Except MaskError SelectionSet := do
  let root ← document.rootSelections operation?
  match follow? document.fragments path.segments [root] with
  | none => throw (.fieldNotFound path)
  | some found => return found.flatten

end QueryMask
