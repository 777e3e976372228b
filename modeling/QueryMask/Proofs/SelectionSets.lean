import QueryMask.Query.Selection
import Mathlib.Tactic.SplitIfs

/-! Induction over selection sets, the fragments that they spread, and how deep they nest. -/

namespace QueryMask

/-- Induction over the first selection and the rest, with the selections below the first one. -/
@[elab_as_elim]
theorem SelectionSet.induction {motive : SelectionSet → Prop} (nil : motive [])
    (field : ∀ alias? name arguments directives selections rest, motive selections → motive rest →
      motive (.field alias? name arguments directives selections :: rest))
    (spread : ∀ name directives rest, motive rest → motive (.spread name directives :: rest))
    (inline : ∀ condition? directives selections rest, motive selections → motive rest →
      motive (.inline condition? directives selections :: rest)) :
    ∀ selections, motive selections
  | [] => nil
  | .field alias? name arguments directives selections :: rest =>
    field alias? name arguments directives selections rest
      (SelectionSet.induction nil field spread inline selections)
      (SelectionSet.induction nil field spread inline rest)
  | .spread name directives :: rest =>
    spread name directives rest (SelectionSet.induction nil field spread inline rest)
  | .inline condition? directives selections :: rest =>
    inline condition? directives selections rest
      (SelectionSet.induction nil field spread inline selections)
      (SelectionSet.induction nil field spread inline rest)
termination_by selections => sizeOf selections

mutual

/-- The fragments that a selection spreads, at any depth. -/
def Selection.spreads : Selection → List Name
  | .field _ _ _ _ selections => SelectionSet.spreads selections
  | .spread fragment _ => [fragment]
  | .inline _ _ selections => SelectionSet.spreads selections

def SelectionSet.spreads : List Selection → List Name
  | [] => []
  | selection :: rest => selection.spreads ++ SelectionSet.spreads rest

end

mutual

/-- The type conditions of inline fragments in a selection, at any depth. -/
def Selection.conditions : Selection → List Name
  | .field _ _ _ _ selections => SelectionSet.conditions selections
  | .spread _ _ => []
  | .inline condition? _ selections => condition?.toList ++ SelectionSet.conditions selections

def SelectionSet.conditions : List Selection → List Name
  | [] => []
  | selection :: rest => selection.conditions ++ SelectionSet.conditions rest

end

theorem Selection.conditions_subset {selections : SelectionSet} {selection : Selection}
    (hmem : selection ∈ selections) : selection.conditions ⊆ SelectionSet.conditions selections := by
  induction selections with
  | nil => simp at hmem
  | cons first rest ih =>
    rw [SelectionSet.conditions]
    rcases List.mem_cons.mp hmem with rfl | hmem
    · exact List.subset_append_left _ _
    · exact List.Subset.trans (ih hmem) (List.subset_append_right _ _)

mutual

def Selection.levels : Selection → Nat
  | .field _ _ _ _ selections => if selections.isEmpty then 1 else 1 + SelectionSet.levels selections
  | .spread _ _ => 1
  | .inline _ _ selections => SelectionSet.levels selections

/-- How many selection sets of fields lie in one another, the given one included. -/
def SelectionSet.levels : List Selection → Nat
  | [] => 1
  | selection :: rest => max selection.levels (SelectionSet.levels rest)

end

theorem SelectionSet.levels_pos (selections : SelectionSet) :
    0 < SelectionSet.levels selections := by
  induction selections with
  | nil => simp [SelectionSet.levels]
  | cons selection rest ih =>
    simp only [SelectionSet.levels]
    omega

/-- Every level has a selection set of its own. -/
theorem SelectionSet.levels_le (selections : SelectionSet) :
    SelectionSet.levels selections ≤ 1 + SelectionSet.nestedSets selections := by
  induction selections using SelectionSet.induction with
  | nil => simp [SelectionSet.levels, SelectionSet.nestedSets]
  | field alias? name arguments directives selections rest ih ihrest =>
    simp only [SelectionSet.levels, SelectionSet.nestedSets, Selection.levels, Selection.nestedSets]
    split_ifs <;> omega
  | spread name directives rest ihrest =>
    simp only [SelectionSet.levels, SelectionSet.nestedSets, Selection.levels, Selection.nestedSets]
    omega
  | inline condition? directives selections rest ih ihrest =>
    simp only [SelectionSet.levels, SelectionSet.nestedSets, Selection.levels, Selection.nestedSets]
    omega

end QueryMask
