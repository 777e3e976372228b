import QueryMask.Proofs.DepthBound
import Mathlib

/-! Visits of path building, and the visits that it makes inside them. Without cycles of fragments they nest no
deeper than the levels of fields in a document, counted once for each fragment. -/

namespace QueryMask

mutual

def Selection.fieldLevels : Selection → Nat
  | .field _ _ _ _ selections => 1 + SelectionSet.fieldLevels selections
  | .spread _ _ => 0
  | .inline _ _ selections => SelectionSet.fieldLevels selections

/-- How deep fields lie in one another in some selections, fragments apart. -/
def SelectionSet.fieldLevels : List Selection → Nat
  | [] => 0
  | selection :: rest => max selection.fieldLevels (SelectionSet.fieldLevels rest)

end

/-- A selection set and the type that it is evaluated on. -/
structure Visit where
  selections : SelectionSet
  type : Name

/--
The second visit is made by the first one itself: below a field that is not left out, on the object type that
the field returns, or on a possible type of it that has a discriminator.
-/
inductive Visit.Opens (system : TypeSystem) (fragments : Fragments) (naming? : Option FieldNaming)
    (discriminator? : Option (Name → Option String)) : Visit → Visit → Prop where
  | object {outer place field segment}
      (happlied : AppliedAt system fragments outer.type outer.selections place field)
      (hsegment : segmentOf system naming? outer.type field = some segment)
      (hbelow : field.selections ≠ []) (hkind : system.kind? field.returnType = some .object) :
      Opens system fragments naming? discriminator? outer ⟨field.selections, field.returnType⟩
  | possible {outer place field segment kind discriminator object text}
      (happlied : AppliedAt system fragments outer.type outer.selections place field)
      (hsegment : segmentOf system naming? outer.type field = some segment)
      (hbelow : field.selections ≠ []) (hkind : system.kind? field.returnType = some kind)
      (habstract : kind.isAbstract = true) (hdiscriminator : discriminator? = some discriminator)
      (hpossible : object ∈ system.possibleTypes field.returnType)
      (htext : discriminator object = some text) :
      Opens system fragments naming? discriminator? outer ⟨field.selections, object⟩

/-- The last visit is made inside the first one, with `count` visits open inside it. -/
inductive Visit.Inside (system : TypeSystem) (fragments : Fragments) (naming? : Option FieldNaming)
    (discriminator? : Option (Name → Option String)) : Nat → Visit → Visit → Prop where
  | self {visit} : Inside system fragments naming? discriminator? 0 visit visit
  | opened {count outer middle inner} (hopens : outer.Opens system fragments naming? discriminator? middle)
      (hinside : Inside system fragments naming? discriminator? count middle inner) :
      Inside system fragments naming? discriminator? (count + 1) outer inner

/-- Some field is reached in the selections, whatever the type conditions in front of it. -/
def HoldsField (fragments : Fragments) (selections : SelectionSet) : Prop :=
  ∃ place alias? name arguments directives below,
    Reached fragments (fun _ => True) selections place (.field alias? name arguments directives below)

section Levels

variable {fragments : Fragments} {selections below : SelectionSet} {levels : Nat}

theorem Selection.fieldLevels_le {selection : Selection} (hmem : selection ∈ selections) :
    selection.fieldLevels ≤ SelectionSet.fieldLevels selections := by
  induction selections with
  | nil => simp at hmem
  | cons first rest ih =>
    rw [SelectionSet.fieldLevels]
    rcases List.mem_cons.mp hmem with rfl | hmem
    · exact Nat.le_max_left _ _
    · exact (ih hmem).trans (Nat.le_max_right _ _)

def Fragments.FieldLevelsWithin (fragments : Fragments) (levels : Nat) : Prop :=
  ∀ name fragment, fragments.find? name = some fragment →
    SelectionSet.fieldLevels fragment.selections ≤ levels

/--
The levels left for the fields below a reached field are fewer: it lies a level further down, or in a fragment
that cannot be entered again.
-/
theorem Fragments.Acyclic.fewer_levels (hacyclic : fragments.Acyclic)
    (hlevels : fragments.FieldLevelsWithin levels) {enters : Option Name → Prop} {place : Place}
    {alias? : Option Name} {name : Name} {arguments : List Argument} {directives : List Directive}
    (hreached : Reached fragments enters selections place (.field alias? name arguments directives below))
    {active : List Name} (hfresh : fragments.Fresh active selections) :
    ∃ further, fragments.Fresh further below ∧
      fragments.inactive further * levels + SelectionSet.fieldLevels below <
        fragments.inactive active * levels + SelectionSet.fieldLevels selections := by
  generalize hitem : Selection.field alias? name arguments directives below = item at hreached
  induction hreached generalizing active with
  | here hget =>
    subst hitem
    have hmem := List.mem_of_getElem? hget
    have hless := Selection.fieldLevels_le hmem
    rw [Selection.fieldLevels] at hless
    exact ⟨active, (hfresh.singleton hmem).field, by omega⟩
  | inline hget _ _ ih =>
    have hmem := List.mem_of_getElem? hget
    have hless := Selection.fieldLevels_le hmem
    rw [Selection.fieldLevels] at hless
    obtain ⟨further, hfurther, hfewer⟩ := ih (hfresh.singleton hmem).inline hitem
    exact ⟨further, hfurther, by omega⟩
  | spread hget hfind _ _ ih =>
    have hspread := hfresh.singleton (List.mem_of_getElem? hget)
    obtain ⟨further, hfurther, hfewer⟩ := ih (hspread.spread hacyclic hfind) hitem
    -- The fragment is no longer inactive, which makes room for its own levels.
    have hentered := Fragments.inactive_cons_lt hfind hspread.not_active
    have hroom := Nat.mul_le_mul_right levels (Nat.succ_le_of_lt hentered)
    rw [Nat.succ_mul] at hroom
    have hlimit := hlevels _ _ hfind
    exact ⟨further, hfurther, by omega⟩

end Levels

section Visits

variable {system : TypeSystem} {fragments : Fragments} {naming? : Option FieldNaming}
  {discriminator? : Option (Name → Option String)} {type : Name} {levels count : Nat}
  {outer inner : Visit}

theorem Visit.Opens.reached (h : outer.Opens system fragments naming? discriminator? inner) :
    ∃ enters place alias? name arguments directives, Reached fragments enters outer.selections place
      (.field alias? name arguments directives inner.selections) := by
  cases h with
  | object happlied =>
    obtain ⟨⟨alias?, arguments, directives, hreached⟩, -⟩ := happlied
    exact ⟨_, _, alias?, _, arguments, directives, hreached⟩
  | possible happlied =>
    obtain ⟨⟨alias?, arguments, directives, hreached⟩, -⟩ := happlied
    exact ⟨_, _, alias?, _, arguments, directives, hreached⟩

/-- Every visit that is open takes one of the levels. -/
theorem Visit.Inside.levels_le (hacyclic : fragments.Acyclic)
    (hlevels : fragments.FieldLevelsWithin levels)
    (h : Visit.Inside system fragments naming? discriminator? count outer inner) {active : List Name}
    (hfresh : fragments.Fresh active outer.selections) :
    ∃ further, fragments.Fresh further inner.selections ∧
      count + (fragments.inactive further * levels + SelectionSet.fieldLevels inner.selections) ≤
        fragments.inactive active * levels + SelectionSet.fieldLevels outer.selections := by
  induction h generalizing active with
  | self => exact ⟨active, hfresh, by omega⟩
  | opened hopens _ ih =>
    obtain ⟨_, _, _, _, _, _, hreached⟩ := hopens.reached
    obtain ⟨middle, hmiddle, hfewer⟩ := hacyclic.fewer_levels hlevels hreached hfresh
    obtain ⟨further, hfurther, hle⟩ := ih hmiddle
    exact ⟨further, hfurther, by omega⟩

theorem appliedFields_ends (selections : SelectionSet) :
    (Run.ofExcept (appliedFields system fragments type selections)).Ends := by
  intro hcut
  rw [Run.outcome_ofExcept] at hcut
  rcases fault_of_appliedFields hcut with ⟨-, hfault⟩ | ⟨-, hfault⟩
  · cases hfault
  · exact hfault

/-- A field fails because its return type is unknown, or because a visit that it opens fails. -/
theorem fault_of_fieldPaths {compute : SelectionSet → Name → Run (List Path)} {place : Place}
    {field : AppliedField} {fault : MaskError}
    (happlied : AppliedAt system fragments outer.type outer.selections place field)
    (h : (fieldPaths system (.perType naming? discriminator?) compute outer.type field).outcome =
      .error fault) :
    (segmentOf system naming? outer.type field ≠ none ∧ system.kind? field.returnType = none ∧
        fault = .unknownType field.returnType) ∨
      ∃ inner, outer.Opens system fragments naming? discriminator? inner ∧
        (compute inner.selections inner.type).outcome = .error fault := by
  have hasked := outcome_segment? system (.perType naming? discriminator?) outer.type field
  unfold fieldPaths at h
  rw [Run.bind_eq_of_ok _ hasked] at h
  cases hsegment : segmentOf system naming? outer.type field with
  | none => simp [Policy.perType, hsegment] at h
  | some segment =>
    simp only [Policy.perType, hsegment] at h
    cases hkind : system.kind? field.returnType with
    | none =>
      simp only [hkind, Run.outcome_ofExcept, Except.error.injEq] at h
      exact .inl ⟨by simp, rfl, h.symm⟩
    | some kind =>
      right
      simp only [hkind] at h
      split_ifs at h with hbelow
      · obtain ⟨hcomposite, hne⟩ : kind.isComposite = true ∧ field.selections ≠ [] := by
          simpa using hbelow
        have hsub := Run.outcome_bind_pure_eq_error_iff.mp h
        rw [← Policy.perType, subPaths_perType] at hsub
        split_ifs at hsub with hobject
        · exact ⟨_, .object happlied hsegment hne (hobject ▸ hkind), hsub⟩
        · have habstract := TypeKind.isAbstract_of_composite hcomposite hobject
          cases hdiscriminator : discriminator? with
          | none => simp [hdiscriminator] at hsub
          | some discriminator =>
            rw [hdiscriminator, Option.elim_some, Run.bind_eq_of_ok _ rfl] at hsub
            obtain ⟨object, hpossible, hvariant⟩ := Run.exists_of_concatMap_error hsub
            unfold variantPaths at hvariant
            cases htext : discriminator object with
            | none => simp [htext] at hvariant
            | some text =>
              simp only [htext] at hvariant
              have hinner := Run.outcome_bind_pure_eq_error_iff.mp hvariant
              exact ⟨_, .possible happlied hsegment hne hkind habstract rfl hpossible htext, hinner⟩
      · simp at h

/-- A visit fails because of its selections, because of a return type, or because a visit inside it fails. -/
theorem fault_of_pathsWithin {depth : Nat} {visit : Visit} {fault : MaskError}
    (h : (pathsWithin system fragments (.perType naming? discriminator?) (depth + 1) visit.selections
      visit.type).outcome = .error fault) :
    appliedFields system fragments visit.type visit.selections = .error fault ∨
      (∃ place field, AppliedAt system fragments visit.type visit.selections place field ∧
        segmentOf system naming? visit.type field ≠ none ∧ system.kind? field.returnType = none ∧
        fault = .unknownType field.returnType) ∨
      ∃ inner, visit.Opens system fragments naming? discriminator? inner ∧
        (pathsWithin system fragments (.perType naming? discriminator?) depth inner.selections
          inner.type).outcome = .error fault := by
  rw [pathsWithin_succ, Run.outcome_bind, bind_eq_error_iff] at h
  rcases h with hfields | ⟨fields, hfields, hpaths⟩
  · exact .inl hfields
  · obtain ⟨field, hfield, hpaths⟩ := Run.exists_of_concatMap_error hpaths
    obtain ⟨place, happlied⟩ := exists_appliedAt (appliedFields_eq_ok_iff.mp hfields).2 hfield
    rcases fault_of_fieldPaths happlied hpaths with ⟨hsegment, hkind, hfault⟩ | hinner
    · exact .inr (.inl ⟨place, field, happlied, hsegment, hkind, hfault⟩)
    · exact .inr (.inr hinner)

/-- The visits are all that can use up the depth: a run ends if they nest less deep. -/
theorem pathsWithin_ends {depth : Nat} (visit : Visit)
    (h : ∀ count inner, Visit.Inside system fragments naming? discriminator? count visit inner →
      count < depth) :
    (pathsWithin system fragments (.perType naming? discriminator?) depth visit.selections
      visit.type).Ends := by
  induction depth generalizing visit with
  | zero => exact absurd (h 0 visit .self) (Nat.lt_irrefl 0)
  | succ depth ih =>
    intro hcut
    rcases fault_of_pathsWithin hcut with hfields | ⟨_, _, _, _, _, hfault⟩ | ⟨inner, hopens, hinner⟩
    · exact appliedFields_ends visit.selections hfields
    · cases hfault
    · refine ih inner (fun count innermost hinside => ?_) hinner
      exact Nat.lt_of_succ_lt_succ (h (count + 1) innermost (.opened hopens hinside))

end Visits

/--
Path building comes to an end, with bounded nesting. Let no fragment reach itself, and let fields lie in at most
`levels` levels in every fragment and in the selections. The visits that are open inside the outermost one are
at most as many as the levels of all fragments and of the selections together; the outermost one counts as well
unless the innermost selections hold no field at all. So the run ends, and more depth makes no difference.
-/
theorem Fragments.Acyclic.nesting_le {fragments : Fragments} (hacyclic : fragments.Acyclic) {levels : Nat}
    (hlevels : fragments.FieldLevelsWithin levels) {selections : SelectionSet}
    (hselections : SelectionSet.fieldLevels selections ≤ levels) (system : TypeSystem)
    (naming? : Option FieldNaming) (discriminator? : Option (Name → Option String)) (type : Name) :
    (∀ count inner,
      Visit.Inside system fragments naming? discriminator? count ⟨selections, type⟩ inner →
        count ≤ (fragments.length + 1) * levels ∧
        (HoldsField fragments inner.selections → count + 1 ≤ (fragments.length + 1) * levels)) ∧
    (pathsRun system fragments (.perType naming? discriminator?) selections type).Ends ∧
    ∀ depth, (fragments.length + 1) * levels < depth →
      pathsWithin system fragments (.perType naming? discriminator?) depth selections type =
        pathsRun system fragments (.perType naming? discriminator?) selections type := by
  have hvisits : ∀ count inner,
      Visit.Inside system fragments naming? discriminator? count ⟨selections, type⟩ inner →
        count ≤ (fragments.length + 1) * levels ∧
        (HoldsField fragments inner.selections → count + 1 ≤ (fragments.length + 1) * levels) := by
    intro count inner hinside
    obtain ⟨further, hfresh, hle⟩ := hinside.levels_le hacyclic hlevels Fragments.fresh_nil
    simp only [Fragments.inactive_nil] at hle
    have hbound : fragments.length * levels + SelectionSet.fieldLevels selections ≤
        (fragments.length + 1) * levels := by
      rw [Nat.succ_mul]
      omega
    refine ⟨by omega, ?_⟩
    rintro ⟨_, _, _, _, _, _, hreached⟩
    obtain ⟨_, _, hfewer⟩ := hacyclic.fewer_levels hlevels hreached hfresh
    omega
  have hends : ∀ depth, (fragments.length + 1) * levels < depth →
      (pathsWithin system fragments (.perType naming? discriminator?) depth selections type).Ends :=
    fun depth hdepth => pathsWithin_ends ⟨selections, type⟩ fun count inner hinside =>
      Nat.lt_of_le_of_lt (hvisits count inner hinside).1 hdepth
  have hsame : ∀ depth, (fragments.length + 1) * levels < depth →
      pathsWithin system fragments (.perType naming? discriminator?) depth selections type =
        pathsRun system fragments (.perType naming? discriminator?) selections type :=
    fun depth hdepth => (TypeSystem.Bounds.pathsRun_eq (.inl hacyclic) (hends depth hdepth)).symm
  refine ⟨hvisits, ?_, hsame⟩
  rw [← hsame _ (Nat.lt_succ_self _)]
  exact hends _ (Nat.lt_succ_self _)

/-! People and their dogs, whose types return one another, and fragments that lead from one to the other. -/

namespace Companions

open Pets (fieldOf typeOf leaf)

def schema : Schema := .ofDefinitions
  [typeOf "Person" (.object [] [fieldOf "name" "String", fieldOf "pet" "Animal"]),
   typeOf "Animal" (.interface [] [fieldOf "owner" "Person"]),
   typeOf "Dog" (.object ["Animal"] [fieldOf "owner" "Person"])]

def fragments : Fragments :=
  [("Kept", ⟨"Animal", [], [.field none "owner" [] [] [.spread "Named" []]]⟩),
   ("Named", ⟨"Person", [], [leaf "name"]⟩)]

def selections : SelectionSet := [.field none "pet" [] [] [.spread "Kept" []]]

theorem acyclic : fragments.Acyclic := by
  refine Fragments.acyclic_of_rank (fun name => if name = "Kept" then 1 else 0) ?_
  rintro outer inner ⟨fragment, hfind, hspread⟩
  have hmem := Fragments.mem_of_find? hfind
  simp only [fragments, List.mem_cons, Prod.mk.injEq, List.not_mem_nil, or_false] at hmem
  rcases hmem with ⟨rfl, rfl⟩ | ⟨rfl, rfl⟩
  · obtain rfl : inner = "Named" := by simpa [SelectionSet.spreads, Selection.spreads] using hspread
    simp
  · simp [leaf, SelectionSet.spreads, Selection.spreads] at hspread

theorem fieldLevels : fragments.FieldLevelsWithin 1 := by
  intro name fragment hfind
  have hmem := Fragments.mem_of_find? hfind
  simp only [fragments, List.mem_cons, Prod.mk.injEq, List.not_mem_nil, or_false] at hmem
  rcases hmem with ⟨-, rfl⟩ | ⟨-, rfl⟩ <;> cbv

theorem owner_inside : Visit.Inside schema.typeSystem fragments none (some some) 2
    ⟨selections, "Person"⟩ ⟨[.spread "Named" []], "Person"⟩ := by
  have hpet : AppliedAt schema.typeSystem fragments "Person" selections [0]
      ⟨"pet", fieldOf "pet" "Animal", [.spread "Kept" []]⟩ :=
    ⟨⟨none, [], [], .here rfl⟩, by cbv, by cbv⟩
  have howner : AppliedAt schema.typeSystem fragments "Dog" [.spread "Kept" []] [0, 0]
      ⟨"owner", fieldOf "owner" "Person", [.spread "Named" []]⟩ :=
    ⟨⟨none, [], [], .spread rfl rfl (by cbv) (.here rfl)⟩, by cbv, by cbv⟩
  have hdog : "Dog" ∈ schema.typeSystem.possibleTypes "Animal" := by decide
  refine .opened (.possible hpet rfl (by simp) (by cbv) rfl rfl hdog rfl) ?_
  exact .opened (.object howner rfl (by simp) (by cbv)) .self

/-- Two fragments and one level: three visits, with the outermost one. -/
theorem nesting_of_pet :
    fragments.Acyclic ∧ fragments.FieldLevelsWithin 1 ∧ SelectionSet.fieldLevels selections ≤ 1 ∧
      Visit.Inside schema.typeSystem fragments none (some some) 2 ⟨selections, "Person"⟩
        ⟨[.spread "Named" []], "Person"⟩ ∧
      HoldsField fragments [.spread "Named" []] ∧ 2 + 1 ≤ (fragments.length + 1) * 1 ∧
      (pathsRun schema.typeSystem fragments (.perType none (some some)) selections "Person").Ends ∧
      pathsWithin schema.typeSystem fragments (.perType none (some some)) 4 selections "Person" =
        pathsRun schema.typeSystem fragments (.perType none (some some)) selections "Person" := by
  have hselections : SelectionSet.fieldLevels selections ≤ 1 := by cbv
  have hnamed : fragments.find? "Named" = some ⟨"Person", [], [leaf "name"]⟩ := rfl
  have hfield : HoldsField fragments [.spread "Named" []] :=
    ⟨[0, 0], none, "name", [], [], [], .spread rfl hnamed trivial (.here rfl)⟩
  obtain ⟨hvisits, hends, hsame⟩ := acyclic.nesting_le fieldLevels hselections schema.typeSystem none
    (some some) "Person"
  exact ⟨acyclic, fieldLevels, hselections, owner_inside, hfield, (hvisits 2 _ owner_inside).2 hfield, hends,
    hsame 4 (by decide)⟩

end Companions

end QueryMask
