import QueryMask.Proofs.Depth

/-! Selections without what lies below reserved fields. No run goes there, but fragments may reach themselves there. -/

namespace QueryMask

mutual

def Selection.pruned : Selection → Selection
  | .field alias? name arguments directives selections =>
    .field alias? name arguments directives (if name.isReserved then [] else SelectionSet.pruned selections)
  | .spread fragment directives => .spread fragment directives
  | .inline condition? directives selections => .inline condition? directives (SelectionSet.pruned selections)

/-- The selections, with nothing below reserved fields at any depth. -/
def SelectionSet.pruned : List Selection → List Selection
  | [] => []
  | selection :: rest => selection.pruned :: SelectionSet.pruned rest

end

def Fragments.pruned (fragments : Fragments) : Fragments :=
  fragments.map fun entry => (entry.1, { entry.2 with selections := SelectionSet.pruned entry.2.selections })

theorem SelectionSet.pruned_eq_nil_iff {selections : SelectionSet} :
    SelectionSet.pruned selections = [] ↔ selections = [] := by
  cases selections <;> simp [SelectionSet.pruned]

theorem SelectionSet.nestedSets_pruned_le (selections : SelectionSet) :
    SelectionSet.nestedSets (SelectionSet.pruned selections) ≤ SelectionSet.nestedSets selections := by
  induction selections using SelectionSet.induction with
  | nil => exact Nat.le_refl _
  | field alias? name arguments directives selections rest ih ihrest =>
    simp only [SelectionSet.pruned, Selection.pruned, SelectionSet.nestedSets, Selection.nestedSets]
    split_ifs
    · simp only [SelectionSet.nestedSets]
      omega
    · omega
  | spread name directives rest ihrest =>
    simp only [SelectionSet.pruned, Selection.pruned, SelectionSet.nestedSets, Selection.nestedSets]
    omega
  | inline condition? directives selections rest ih ihrest =>
    simp only [SelectionSet.pruned, Selection.pruned, SelectionSet.nestedSets, Selection.nestedSets]
    omega

namespace Fragments

variable {fragments : Fragments}

theorem nestedSets_pruned_le (fragments : Fragments) : fragments.pruned.nestedSets ≤ fragments.nestedSets := by
  induction fragments with
  | nil => exact Nat.le_refl _
  | cons entry rest ih =>
    have hentry := SelectionSet.nestedSets_pruned_le entry.2.selections
    exact Nat.add_le_add hentry ih

theorem alike_pruned (fragments : Fragments) :
    fragments.Alike (fun selections kept => kept = SelectionSet.pruned selections) fragments.pruned := by
  induction fragments with
  | nil => exact alike_nil
  | cons entry rest ih => exact ih.cons rfl rfl

end Fragments

/-- The bound of path building is no less with what lies below reserved fields. -/
theorem depthBound_pruned_le (system : TypeSystem) (fragments : Fragments) (selections : SelectionSet) :
    depthBound system fragments.pruned (SelectionSet.pruned selections) ≤ depthBound system fragments selections := by
  have hlength : fragments.pruned.length = fragments.length := List.length_map _
  have hcount : setCount fragments.pruned (SelectionSet.pruned selections) ≤ setCount fragments selections :=
    Nat.add_le_add (Nat.add_le_add_left (SelectionSet.nestedSets_pruned_le selections) 1)
      (Fragments.nestedSets_pruned_le fragments)
  unfold depthBound
  rw [hlength]
  exact Nat.mul_le_mul_right _ (Nat.mul_le_mul_left _ hcount)

end QueryMask
