import QueryMask.Proofs.Collection
import QueryMask.Proofs.FieldPaths

/-! Fragments that do not reach themselves: the depth of path building does not matter beyond a bound. -/

namespace QueryMask

variable {system : TypeSystem} {fragments : Fragments} {policy : Policy} {selections : SelectionSet}
  {type : Name} {depth deeper : Nat}

/-- The selections of a reached field nest less deep, unless it has none. -/
theorem Fragments.EndsWithin.of_reached {enters : Option Name → Prop} {place : Place}
    {alias? : Option Name} {name : Name} {arguments : List Argument} {directives : List Directive}
    {below : SelectionSet} (h : fragments.EndsWithin (depth + 1) selections)
    (hreached : Reached fragments enters selections place
      (.field alias? name arguments directives below)) (hbelow : below ≠ []) :
    fragments.EndsWithin depth below := by
  generalize hitem : Selection.field alias? name arguments directives below = item at hreached
  induction hreached with
  | here hget =>
    subst hitem
    cases h.singleton (List.mem_of_getElem? hget) with
    | leaf => simp at hbelow
    | field hends => exact hends
  | inline hget _ _ ih =>
    cases h.singleton (List.mem_of_getElem? hget) with
    | inline hbody => exact ih hbody hitem
  | spread hget hfind _ _ ih =>
    cases h.singleton (List.mem_of_getElem? hget) with
    | unknown hnone => simp [hfind] at hnone
    | known hfound hbody =>
      obtain rfl := Option.some.inj (hfound.symm.trans hfind)
      exact ih hbody hitem

theorem pathsWithin_succ :
    pathsWithin system fragments policy (depth + 1) selections type =
      Run.ofExcept (appliedFields system fragments type selections) >>=
        Run.concatMap (fieldPaths system policy (pathsWithin system fragments policy depth) type) :=
  rfl

/-- The fields of a selection set decide what is computed below it. -/
theorem levelPaths_congr {compute other : SelectionSet → Name → Run (List Path)}
    (h : ∀ place field, AppliedAt system fragments type selections place field →
      field.selections ≠ [] → compute field.selections = other field.selections) :
    Run.ofExcept (appliedFields system fragments type selections) >>=
        Run.concatMap (fieldPaths system policy compute type) =
      Run.ofExcept (appliedFields system fragments type selections) >>=
        Run.concatMap (fieldPaths system policy other type) := by
  cases hfields : appliedFields system fragments type selections with
  | error error => rw [Run.ofExcept_error_bind, Run.ofExcept_error_bind]
  | ok fields =>
    have hcollect := (appliedFields_eq_ok_iff.mp hfields).2
    rw [Run.ofExcept_ok_bind, Run.ofExcept_ok_bind]
    refine Run.concatMap_congr fun field hfield => ?_
    obtain ⟨place, happlied⟩ := exists_appliedAt hcollect hfield
    exact fieldPaths_congr (h place field happlied)

/-- More depth than the selections need makes no difference, whatever the policy. -/
theorem pathsWithin_of_endsWithin (h : fragments.EndsWithin depth selections)
    (hle : depth ≤ deeper) :
    pathsWithin system fragments policy deeper selections type =
      pathsWithin system fragments policy depth selections type := by
  induction depth generalizing deeper selections type with
  | zero => exact absurd h.pos (Nat.lt_irrefl 0)
  | succ depth ih =>
    obtain ⟨deeper, rfl⟩ := Nat.exists_eq_add_one.mpr (Nat.lt_of_lt_of_le h.pos hle)
    rw [pathsWithin_succ, pathsWithin_succ]
    refine levelPaths_congr fun place field ⟨⟨_, _, _, hreached⟩, _⟩ hbelow => ?_
    funext type
    exact ih (h.of_reached hreached hbelow) (Nat.le_of_succ_le_succ hle)

theorem levels_le_setCount (fragments : Fragments) (selections : SelectionSet) :
    SelectionSet.levels selections ≤ setCount fragments selections := by
  have h := SelectionSet.levels_le selections
  unfold setCount
  omega

theorem setCount_pos (fragments : Fragments) (selections : SelectionSet) : 0 < setCount fragments selections := by
  unfold setCount
  omega

theorem depthBound_pos (system : TypeSystem) (fragments : Fragments) (selections : SelectionSet) :
    0 < depthBound system fragments selections :=
  Nat.mul_pos (Nat.mul_pos (Nat.succ_pos _) (setCount_pos _ _)) (Nat.succ_pos _)

theorem Fragments.nestedSets_le {name : Name} {fragment : Fragment}
    (hmem : (name, fragment) ∈ fragments) :
    SelectionSet.nestedSets fragment.selections ≤ fragments.nestedSets := by
  induction fragments with
  | nil => simp at hmem
  | cons entry rest ih =>
    obtain ⟨known, other⟩ := entry
    rw [Fragments.nestedSets]
    rcases List.mem_cons.mp hmem with heq | hmem
    · obtain ⟨-, rfl⟩ := Prod.mk.inj heq
      omega
    · have h := ih hmem
      omega

theorem levelsWithin_setCount (fragments : Fragments) (selections : SelectionSet) :
    fragments.LevelsWithin (setCount fragments selections) := by
  intro name fragment hfind
  have h := SelectionSet.levels_le fragment.selections
  have hle := Fragments.nestedSets_le (Fragments.mem_of_find? hfind)
  unfold setCount
  omega

namespace Fragments

/-- The bound of path building suffices for fragments that do not reach themselves. -/
theorem Acyclic.endsWithin_depthBound (hacyclic : fragments.Acyclic) (system : TypeSystem)
    (selections : SelectionSet) :
    fragments.EndsWithin (depthBound system fragments selections) selections := by
  have h := hacyclic.endsWithin (levelsWithin_setCount fragments selections)
    (levels_le_setCount fragments selections)
  exact h.mono (Nat.le_mul_of_pos_right _ (Nat.succ_pos _))

theorem Acyclic.pathsWithin_eq_pathsRun (hacyclic : fragments.Acyclic)
    (h : fragments.EndsWithin depth selections) :
    pathsWithin system fragments policy depth selections type =
      pathsRun system fragments policy selections type := by
  have hbound := hacyclic.endsWithin_depthBound system selections
  rcases Nat.le_total depth (depthBound system fragments selections) with hle | hle
  · exact (pathsWithin_of_endsWithin h hle).symm
  · exact pathsWithin_of_endsWithin hbound hle

/-- Building paths is the recursion through the fields, whatever the policy. -/
theorem Acyclic.pathsRun_eq (hacyclic : fragments.Acyclic) :
    pathsRun system fragments policy selections type =
      Run.ofExcept (appliedFields system fragments type selections) >>=
        Run.concatMap (fieldPaths system policy (pathsRun system fragments policy) type) := by
  have hends := hacyclic.endsWithin_depthBound system selections
  rw [← hacyclic.pathsWithin_eq_pathsRun hends]
  obtain ⟨depth, hdepth⟩ := Nat.exists_eq_add_one.mpr hends.pos
  rw [hdepth] at hends ⊢
  rw [pathsWithin_succ]
  refine levelPaths_congr fun place field ⟨⟨_, _, _, hreached⟩, _⟩ hbelow => ?_
  funext type
  exact hacyclic.pathsWithin_eq_pathsRun (hends.of_reached hreached hbelow)

/-- Induction from the selections of the reached fields to the selections around them. -/
theorem Acyclic.descent (hacyclic : fragments.Acyclic) {motive : SelectionSet → Prop}
    (step : ∀ selections, (∀ enters place alias? name arguments directives below,
      Reached fragments enters selections place
        (.field alias? name arguments directives below) → below ≠ [] → motive below) →
      motive selections) (selections : SelectionSet) : motive selections := by
  obtain ⟨levels, hlevels⟩ := fragments.exists_levelsWithin
  have hends := hacyclic.endsWithin_active hlevels [] selections fresh_nil
  generalize fragments.inactive [] * levels + SelectionSet.levels selections = depth at hends
  induction depth generalizing selections with
  | zero => exact absurd hends.pos (Nat.lt_irrefl 0)
  | succ depth ih =>
    exact step selections fun _ _ _ _ _ _ below hreached hbelow =>
      ih below (hends.of_reached hreached hbelow)

end Fragments

end QueryMask
