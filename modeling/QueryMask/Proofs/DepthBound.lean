import QueryMask.Proofs.Depth
import Mathlib

/-! Runs that end at any depth end within the bound of path building, also when fragments reach themselves, if the
object types are listed: a selection set that comes up inside itself on the same type comes up for ever. -/

namespace QueryMask

mutual

/-- The selection sets under the fields of a selection, at any depth. -/
def Selection.nested : Selection → List SelectionSet
  | .field _ _ _ _ selections => selections :: SelectionSet.nested selections
  | .spread _ _ => []
  | .inline _ _ selections => SelectionSet.nested selections

def SelectionSet.nested : List Selection → List SelectionSet
  | [] => []
  | selection :: rest => selection.nested ++ SelectionSet.nested rest

end

def Fragments.nested (fragments : Fragments) : List SelectionSet :=
  fragments.flatMap fun entry => SelectionSet.nested entry.2.selections

/-- The given selection set, and all those under fields of it and of fragments. -/
def selectionSets (fragments : Fragments) (selections : SelectionSet) : List SelectionSet :=
  selections :: (SelectionSet.nested selections ++ fragments.nested)

section Nested

variable {fragments : Fragments} {selections below : SelectionSet}

theorem SelectionSet.length_nested (selections : SelectionSet) :
    (SelectionSet.nested selections).length = SelectionSet.nestedSets selections := by
  induction selections using SelectionSet.induction with
  | nil => rfl
  | field alias? name arguments directives selections rest ih ihrest =>
    simp only [SelectionSet.nested, Selection.nested, SelectionSet.nestedSets, Selection.nestedSets,
      List.length_append, List.length_cons, ih, ihrest]
    omega
  | spread name directives rest ihrest =>
    simp only [SelectionSet.nested, Selection.nested, SelectionSet.nestedSets, Selection.nestedSets,
      List.nil_append, ihrest]
    omega
  | inline condition? directives selections rest ih ihrest =>
    simp only [SelectionSet.nested, Selection.nested, SelectionSet.nestedSets, Selection.nestedSets,
      List.length_append, ih, ihrest]

theorem Fragments.length_nested (fragments : Fragments) :
    fragments.nested.length = fragments.nestedSets := by
  induction fragments with
  | nil => rfl
  | cons entry rest ih =>
    obtain ⟨name, fragment⟩ := entry
    rw [Fragments.nested, List.flatMap_cons, List.length_append, SelectionSet.length_nested,
      Fragments.nestedSets, ← ih]
    rfl

theorem length_selectionSets :
    (selectionSets fragments selections).length = setCount fragments selections := by
  rw [selectionSets, List.length_cons, List.length_append, SelectionSet.length_nested,
    Fragments.length_nested, setCount]
  omega

theorem SelectionSet.mem_nested_cons {set : SelectionSet} {selection : Selection} {rest : SelectionSet} :
    set ∈ SelectionSet.nested (selection :: rest) ↔
      set ∈ selection.nested ∨ set ∈ SelectionSet.nested rest := by
  rw [SelectionSet.nested, List.mem_append]

theorem Selection.nested_subset {selection : Selection} (hmem : selection ∈ selections) :
    selection.nested ⊆ SelectionSet.nested selections := by
  intro set hset
  induction selections with
  | nil => simp at hmem
  | cons first rest ih =>
    rw [SelectionSet.mem_nested_cons]
    rcases List.mem_cons.mp hmem with rfl | hmem
    · exact .inl hset
    · exact .inr (ih hmem)

/-- What is nested in a nested selection set is nested in the whole. -/
theorem SelectionSet.nested_trans (hmem : below ∈ SelectionSet.nested selections) :
    SelectionSet.nested below ⊆ SelectionSet.nested selections := by
  induction selections using SelectionSet.induction with
  | nil => simp [SelectionSet.nested] at hmem
  | field alias? name arguments directives selections rest ih ihrest =>
    intro set hset
    rw [SelectionSet.mem_nested_cons, Selection.nested, List.mem_cons] at hmem ⊢
    rcases hmem with (rfl | hmem) | hmem
    · exact .inl (.inr hset)
    · exact .inl (.inr (ih hmem hset))
    · exact .inr (ihrest hmem hset)
  | spread name directives rest ihrest =>
    intro set hset
    rw [SelectionSet.mem_nested_cons, Selection.nested] at hmem ⊢
    exact .inr (ihrest (hmem.resolve_left (by simp)) hset)
  | inline condition? directives selections rest ih ihrest =>
    intro set hset
    rw [SelectionSet.mem_nested_cons, Selection.nested] at hmem ⊢
    exact hmem.imp (ih · hset) (ihrest · hset)

theorem Fragments.nested_subset {entry : Name × Fragment} (hentry : entry ∈ fragments) :
    SelectionSet.nested entry.2.selections ⊆ fragments.nested :=
  fun _ hset => List.mem_flatMap.mpr ⟨entry, hentry, hset⟩

theorem mem_nested_of_reached {enters : Option Name → Prop} {place : Place} {alias? : Option Name}
    {name : Name} {arguments : List Argument} {directives : List Directive}
    (hreached : Reached fragments enters selections place
      (.field alias? name arguments directives below)) :
    below ∈ SelectionSet.nested selections ++ fragments.nested := by
  generalize hitem : Selection.field alias? name arguments directives below = item at hreached
  induction hreached with
  | here hget =>
    subst hitem
    have hsubset := Selection.nested_subset (List.mem_of_getElem? hget)
    exact List.mem_append_left _ (hsubset (by simp [Selection.nested]))
  | inline hget _ _ ih =>
    have hsubset := Selection.nested_subset (List.mem_of_getElem? hget)
    rw [Selection.nested] at hsubset
    exact List.mem_append.mpr ((List.mem_append.mp (ih hitem)).imp_left (hsubset ·))
  | spread _ hfind _ _ ih =>
    refine List.mem_append_right _ ?_
    rcases List.mem_append.mp (ih hitem) with hmem | hmem
    · exact Fragments.nested_subset (Fragments.mem_of_find? hfind) hmem
    · exact hmem

/-- Reached fields have their selections among the selection sets. -/
theorem mem_selectionSets_of_reached {root : SelectionSet} {enters : Option Name → Prop}
    {place : Place} {alias? : Option Name} {name : Name} {arguments : List Argument}
    {directives : List Directive} (hmem : selections ∈ selectionSets fragments root)
    (hreached : Reached fragments enters selections place
      (.field alias? name arguments directives below)) :
    below ∈ selectionSets fragments root := by
  have hsubset : SelectionSet.nested selections ⊆ SelectionSet.nested root ++ fragments.nested := by
    intro set hset
    rcases List.mem_cons.mp hmem with rfl | hmem
    · exact List.mem_append_left _ hset
    rcases List.mem_append.mp hmem with hroot | hfragments
    · exact List.mem_append_left _ (SelectionSet.nested_trans hroot hset)
    · obtain ⟨entry, hentry, hnested⟩ := List.mem_flatMap.mp hfragments
      exact List.mem_append_right _
        (Fragments.nested_subset hentry (SelectionSet.nested_trans hnested hset))
  refine List.mem_cons_of_mem _ ?_
  rcases List.mem_append.mp (mem_nested_of_reached hreached) with hbelow | hbelow
  · exact hsubset hbelow
  · exact List.mem_append_right _ hbelow

end Nested

section Ends

variable {system : TypeSystem} {fragments : Fragments} {naming? : Option FieldNaming}
  {discriminator? : Option (Name → Option String)} {selections : SelectionSet} {type : Name}
  {depth deeper : Nat}

/-- A level that ends is the same when the paths below it change only where they do not end. -/
theorem levelPaths_eq_of_ends {compute other : SelectionSet → Name → Run (List Path)}
    (hbelow : ∀ fields, appliedFields system fragments type selections = .ok fields →
      ∀ field ∈ fields, ∀ below, (compute field.selections below).Ends →
        other field.selections below = compute field.selections below)
    (h : (Run.ofExcept (appliedFields system fragments type selections) >>= Run.concatMap
      (fieldPaths system (.perType naming? discriminator?) compute type)).Ends) :
    Run.ofExcept (appliedFields system fragments type selections) >>= Run.concatMap
        (fieldPaths system (.perType naming? discriminator?) other type) =
      Run.ofExcept (appliedFields system fragments type selections) >>= Run.concatMap
        (fieldPaths system (.perType naming? discriminator?) compute type) := by
  cases hfields : appliedFields system fragments type selections with
  | error fault => rw [Run.ofExcept_error_bind, Run.ofExcept_error_bind]
  | ok fields =>
    rw [hfields, Run.ofExcept_ok_bind] at h
    rw [Run.ofExcept_ok_bind, Run.ofExcept_ok_bind]
    exact Run.concatMap_eq_of_ends
      (fun field hfield => fieldPaths_eq_of_ends (hbelow fields hfields field hfield)) h

theorem not_ends_zero : ¬ (pathsWithin system fragments (.perType naming? discriminator?) 0 selections
    type).Ends :=
  fun h => h rfl

theorem pathsWithin_succ_of_ends
    (h : (pathsWithin system fragments (.perType naming? discriminator?) depth selections type).Ends) :
    pathsWithin system fragments (.perType naming? discriminator?) (depth + 1) selections type =
      pathsWithin system fragments (.perType naming? discriminator?) depth selections type := by
  induction depth generalizing selections type with
  | zero => exact absurd h not_ends_zero
  | succ depth ih =>
    rw [pathsWithin_succ] at h
    exact levelPaths_eq_of_ends (fun _ _ _ _ _ hends => ih hends) h

/-- More depth makes no difference to a run that ends. -/
theorem pathsWithin_of_ends
    (h : (pathsWithin system fragments (.perType naming? discriminator?) depth selections type).Ends)
    (hle : depth ≤ deeper) :
    pathsWithin system fragments (.perType naming? discriminator?) deeper selections type =
      pathsWithin system fragments (.perType naming? discriminator?) depth selections type := by
  induction deeper, hle using Nat.le_induction with
  | base => rfl
  | succ deeper _ ih => rw [pathsWithin_succ_of_ends (ih ▸ h), ih]

/-- The greatest depth at which a run is still cut off. -/
def CutOffAt (system : TypeSystem) (fragments : Fragments) (policy : Policy) (depth : Nat)
    (selections : SelectionSet) (type : Name) : Prop :=
  ¬ (pathsWithin system fragments policy depth selections type).Ends ∧
    (pathsWithin system fragments policy (depth + 1) selections type).Ends

theorem CutOffAt.unique
    (h : CutOffAt system fragments (.perType naming? discriminator?) depth selections type)
    (hother : CutOffAt system fragments (.perType naming? discriminator?) deeper selections type) :
    depth = deeper := by
  have hle : ∀ {first second}, CutOffAt system fragments (.perType naming? discriminator?) first
      selections type → CutOffAt system fragments (.perType naming? discriminator?) second selections
      type → first ≤ second := by
    intro first second hfirst hsecond
    by_contra hlt
    have hmore := pathsWithin_of_ends hsecond.2 (Nat.succ_le_of_lt (Nat.lt_of_not_le hlt))
    exact hfirst.1 (hmore ▸ hsecond.2)
  exact Nat.le_antisymm (hle h hother) (hle hother h)

theorem exists_cutOffAt
    (h : (pathsWithin system fragments (.perType naming? discriminator?) depth selections type).Ends) :
    ∃ less, CutOffAt system fragments (.perType naming? discriminator?) less selections type := by
  induction depth with
  | zero => exact absurd h not_ends_zero
  | succ depth ih =>
    by_cases hends : (pathsWithin system fragments (.perType naming? discriminator?) depth selections
        type).Ends
    · exact ih hends
    · exact ⟨depth, hends, h⟩

/-- A run that is cut off below the top is so only on an object type. -/
theorem CutOffAt.kind
    (h : CutOffAt system fragments (.perType naming? discriminator?) (depth + 1) selections type) :
    system.kind? type = some .object := by
  by_contra hkind
  refine h.1 ?_
  rw [pathsWithin_succ, appliedFields, if_neg hkind, Run.ofExcept_error_bind]
  simp [Run.Ends]

/-- What is cut off at some depth leads to something that is cut off at one depth less. -/
theorem CutOffAt.below
    (h : CutOffAt system fragments (.perType naming? discriminator?) (depth + 1) selections type) :
    ∃ place field below, AppliedAt system fragments type selections place field ∧
      CutOffAt system fragments (.perType naming? discriminator?) depth field.selections below := by
  by_contra hnone
  have hsame : pathsWithin system fragments (.perType naming? discriminator?) (depth + 1) selections type =
      pathsWithin system fragments (.perType naming? discriminator?) (depth + 2) selections type := by
    rw [pathsWithin_succ, pathsWithin_succ]
    have hends := h.2
    rw [pathsWithin_succ] at hends
    refine levelPaths_eq_of_ends (fun fields hfields field hfield below hbelow => ?_) hends
    obtain ⟨place, happlied⟩ := exists_appliedAt (appliedFields_eq_ok_iff.mp hfields).2 hfield
    have hless : (pathsWithin system fragments (.perType naming? discriminator?) depth field.selections
        below).Ends := by
      by_contra hcut
      exact hnone ⟨place, field, below, happlied, hcut, hbelow⟩
    exact (pathsWithin_succ_of_ends hless).symm
  exact h.1 (hsame ▸ h.2)

/-- So all lesser depths are those of selection sets of the document. -/
theorem CutOffAt.exists_at {root : SelectionSet} (hmem : selections ∈ selectionSets fragments root)
    (h : CutOffAt system fragments (.perType naming? discriminator?) depth selections type) {less : Nat}
    (hle : less ≤ depth) :
    ∃ set ∈ selectionSets fragments root, ∃ below,
      CutOffAt system fragments (.perType naming? discriminator?) less set below := by
  induction depth generalizing selections type with
  | zero => exact ⟨selections, hmem, type, by rwa [Nat.le_zero.mp hle]⟩
  | succ depth ih =>
    rcases Nat.of_le_succ hle with hle | rfl
    · obtain ⟨_, _, _, ⟨⟨_, _, _, hreached⟩, _⟩, hbelow⟩ := h.below
      exact ih (mem_selectionSets_of_reached hmem hreached) hbelow hle
    · exact ⟨selections, hmem, type, h⟩

/-- Every depth has a selection set and an object type of its own, so there are not too many. -/
theorem CutOffAt.le (hlisted : system.Listed)
    (h : CutOffAt system fragments (.perType naming? discriminator?) depth selections type) :
    depth ≤ setCount fragments selections * system.objectTypes.length := by
  have hroot : selections ∈ selectionSets fragments selections := List.mem_cons_self
  -- from depth 1 on; a run that is cut off at depth 0 only can be one on an unknown type
  have hexists : ∀ less ∈ List.range' 1 depth,
      ∃ pair ∈ selectionSets fragments selections ×ˢ system.objectTypes,
        CutOffAt system fragments (.perType naming? discriminator?) less pair.1 pair.2 := by
    intro less hless
    obtain ⟨hpos, hlt⟩ : 1 ≤ less ∧ less < 1 + depth := by simpa using hless
    obtain ⟨lesser, rfl⟩ := Nat.exists_eq_add_one.mpr hpos
    have hle : lesser + 1 ≤ depth := by omega
    obtain ⟨set, hset, below, hcut⟩ := h.exists_at hroot hle
    exact ⟨(set, below), List.mem_product.mpr ⟨hset, hlisted _ hcut.kind⟩, hcut⟩
  choose! pairOf hpair hcut using hexists
  have hdistinct : ((List.range' 1 depth).map pairOf).Nodup := by
    refine List.Nodup.map_on (fun less hless other hother heq => ?_) List.nodup_range'
    have hother' := hcut other hother
    rw [← heq] at hother'
    exact (hcut less hless).unique hother'
  have hsubset : (List.range' 1 depth).map pairOf ⊆
      selectionSets fragments selections ×ˢ system.objectTypes := by
    intro pair hmem
    obtain ⟨less, hless, rfl⟩ := List.mem_map.mp hmem
    exact hpair less hless
  have hlength := (List.subperm_of_subset hdistinct hsubset).length_le
  rwa [List.length_map, List.length_range', List.length_product, length_selectionSets] at hlength

theorem CutOffAt.lt_depthBound (hlisted : system.Listed)
    (h : CutOffAt system fragments (.perType naming? discriminator?) depth selections type) :
    depth < depthBound system fragments selections := by
  have hle := h.le hlisted
  have hcount := setCount_pos fragments selections
  have hroom : setCount fragments selections * (system.objectTypes.length + 1) ≤
      depthBound system fragments selections :=
    Nat.mul_le_mul_right _ (Nat.le_mul_of_pos_left _ (Nat.succ_pos _))
  rw [Nat.mul_succ] at hroom
  omega

/-- The bound suffices on these fragments: none of them reaches itself, or all object types are listed. -/
def TypeSystem.Bounds (system : TypeSystem) (fragments : Fragments) : Prop :=
  fragments.Acyclic ∨ system.Listed

theorem TypeSystem.Bounds.ends (hbounds : system.Bounds fragments)
    (h : (pathsWithin system fragments (.perType naming? discriminator?) depth selections type).Ends) :
    (pathsRun system fragments (.perType naming? discriminator?) selections type).Ends := by
  rcases hbounds with hacyclic | hlisted
  · rw [pathsRun]
    have hends := hacyclic.endsWithin_depthBound system selections
    rcases Nat.le_total depth (depthBound system fragments selections) with hle | hle
    · rwa [pathsWithin_of_ends h hle]
    · rwa [← pathsWithin_of_endsWithin hends hle]
  · obtain ⟨least, hleast⟩ := exists_cutOffAt h
    rw [pathsRun, pathsWithin_of_ends hleast.2 (hleast.lt_depthBound hlisted)]
    exact hleast.2

/-- A run that ends at any depth is the run of path building. -/
theorem TypeSystem.Bounds.pathsRun_eq (hbounds : system.Bounds fragments)
    (h : (pathsWithin system fragments (.perType naming? discriminator?) depth selections type).Ends) :
    pathsRun system fragments (.perType naming? discriminator?) selections type =
      pathsWithin system fragments (.perType naming? discriminator?) depth selections type := by
  have hends := hbounds.ends h
  rw [pathsRun] at hends ⊢
  rcases Nat.le_total depth (depthBound system fragments selections) with hle | hle
  · exact pathsWithin_of_ends h hle
  · exact (pathsWithin_of_ends hends hle).symm

theorem TypeSystem.Bounds.selectedPaths_eq (hbounds : system.Bounds fragments) {paths : List Path}
    (h : (pathsWithin system fragments (.perType naming? discriminator?) depth selections type).outcome =
      .ok paths) :
    selectedPaths system fragments (.perType naming? discriminator?) selections type = .ok paths := by
  rw [selectedPaths, hbounds.pathsRun_eq (Run.ends_of_ok h), h]

/-- Runs that are the same at every depth end with the same, though their bounds may differ. -/
theorem selectedPaths_eq_of_pathsWithin_eq {other : TypeSystem} {others : Fragments}
    {otherNaming? : Option FieldNaming} {otherDiscriminator? : Option (Name → Option String)}
    {otherSelections : SelectionSet} (hlisted : system.Listed) (hlistedOther : other.Listed)
    (h : ∀ depth, pathsWithin system fragments (.perType naming? discriminator?) depth selections type =
      pathsWithin other others (.perType otherNaming? otherDiscriminator?) depth otherSelections type) :
    selectedPaths system fragments (.perType naming? discriminator?) selections type =
      selectedPaths other others (.perType otherNaming? otherDiscriminator?) otherSelections type := by
  have hbounds : system.Bounds fragments := .inr hlisted
  have hboundsOther : other.Bounds others := .inr hlistedOther
  unfold selectedPaths
  by_cases hends : (pathsRun system fragments (.perType naming? discriminator?) selections type).Ends
  · unfold pathsRun at hends
    rw [hbounds.pathsRun_eq hends, h, hboundsOther.pathsRun_eq (h _ ▸ hends)]
  · by_cases hendsOther : (pathsRun other others (.perType otherNaming? otherDiscriminator?) otherSelections
        type).Ends
    · unfold pathsRun at hendsOther
      rw [hboundsOther.pathsRun_eq hendsOther, ← h, hbounds.pathsRun_eq ((h _).symm ▸ hendsOther)]
    · have hcut := not_not.mp hends
      have hcutOther := not_not.mp hendsOther
      rw [hcut, hcutOther]

/-- A run that ends is the recursion through the fields. -/
theorem TypeSystem.Bounds.pathsRun_eq_level (hbounds : system.Bounds fragments)
    (h : (pathsRun system fragments (.perType naming? discriminator?) selections type).Ends) :
    pathsRun system fragments (.perType naming? discriminator?) selections type =
      Run.ofExcept (appliedFields system fragments type selections) >>= Run.concatMap
        (fieldPaths system (.perType naming? discriminator?)
          (pathsRun system fragments (.perType naming? discriminator?)) type) := by
  unfold pathsRun at h
  cases hbound : depthBound system fragments selections with
  | zero =>
    rw [hbound] at h
    exact absurd h not_ends_zero
  | succ depth =>
    rw [hbound, pathsWithin_succ] at h
    have hlevel := levelPaths_eq_of_ends (fun _ _ _ _ _ hends => hbounds.pathsRun_eq hends) h
    rw [pathsRun, hbound, pathsWithin_succ, hlevel]

/-- Where the recursion through the fields ends, it is the run. -/
theorem TypeSystem.Bounds.pathsRun_eq_level_of_ends (hbounds : system.Bounds fragments)
    (h : (Run.ofExcept (appliedFields system fragments type selections) >>= Run.concatMap
      (fieldPaths system (.perType naming? discriminator?)
        (pathsRun system fragments (.perType naming? discriminator?)) type)).Ends) :
    pathsRun system fragments (.perType naming? discriminator?) selections type =
      Run.ofExcept (appliedFields system fragments type selections) >>= Run.concatMap
        (fieldPaths system (.perType naming? discriminator?)
          (pathsRun system fragments (.perType naming? discriminator?)) type) := by
  obtain ⟨depth, hdepth⟩ : ∃ depth, ∀ fields, appliedFields system fragments type selections = .ok fields →
      ∀ field ∈ fields, depthBound system fragments field.selections ≤ depth := by
    cases happlied : appliedFields system fragments type selections with
    | error fault => exact ⟨0, fun fields hfields => absurd hfields (by simp)⟩
    | ok applied =>
      refine ⟨(applied.map fun field => depthBound system fragments field.selections).sum, ?_⟩
      intro fields hfields field hfield
      rw [Except.ok.inj hfields]
      exact List.le_sum_of_mem (List.mem_map_of_mem hfield)
  have hbelow : ∀ fields, appliedFields system fragments type selections = .ok fields →
      ∀ field ∈ fields, ∀ below,
        (pathsRun system fragments (.perType naming? discriminator?) field.selections below).Ends →
        pathsWithin system fragments (.perType naming? discriminator?) depth field.selections below =
          pathsRun system fragments (.perType naming? discriminator?) field.selections below := by
    intro fields hfields field hfield below hends
    exact pathsWithin_of_ends hends (hdepth fields hfields field hfield)
  have hlevel := levelPaths_eq_of_ends hbelow h
  rw [← pathsWithin_succ] at hlevel
  rw [← hlevel] at h ⊢
  exact hbounds.pathsRun_eq h

end Ends

end QueryMask
