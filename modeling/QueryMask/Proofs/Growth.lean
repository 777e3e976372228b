import QueryMask.Proofs.DefinitionOrder
import QueryMask.Proofs.DepthBound
import QueryMask.Proofs.Restriction
import Mathlib

/-! Schemas that grow by types with new names: what could be selected before still can be, with the same paths, and
all further paths pass through a new possible type. -/

namespace QueryMask

/-- A system with more types, of the added names. The others are as they were, apart from new possible types. -/
structure TypeSystem.GrowsBy (added : List Name) (system grown : TypeSystem) : Prop where
  kind : ∀ name, name ∉ added → system.kind? name = grown.kind? name
  unknown : ∀ name ∈ added, system.kind? name = none
  field : ∀ type, type ∉ added → ∀ name, system.field? type name = grown.field? type name
  possible : ∀ name, name ∉ added →
    system.possibleTypes name = (grown.possibleTypes name).filter (· ∉ added)

namespace Schema

variable {definitions added : List SchemaDefinition} {name object : Name}

theorem bodiesOf_append_of_not_mem (hname : name ∉ typeNames added) :
    bodiesOf (definitions ++ added) name = bodiesOf definitions name := by
  have hnone : bodiesOf added name = [] := bodiesOf_eq_nil hname
  unfold bodiesOf at hnone ⊢
  rw [List.filterMap_append, hnone, List.append_nil]

theorem kind?_append_of_not_mem (hname : name ∉ typeNames added) :
    (ofDefinitions (definitions ++ added)).kind? name = (ofDefinitions definitions).kind? name := by
  rw [kind?_ofDefinitions, kind?_ofDefinitions, bodiesOf_append_of_not_mem hname]

section Growth

variable (hnew : ∀ name ∈ typeNames added, name ∉ typeNames definitions ∧ name ∉ builtinScalars)
include hnew

theorem kind?_of_new (hname : name ∈ typeNames added) : (ofDefinitions definitions).kind? name = none := by
  obtain ⟨hunused, hscalar⟩ := hnew name hname
  rw [kind?_ofDefinitions, if_neg hscalar, bodiesOf_eq_nil hunused]
  rfl

theorem isObject_iff_of_new :
    (ofDefinitions definitions).kind? object = some .object ↔
      object ∉ typeNames added ∧ (ofDefinitions (definitions ++ added)).kind? object = some .object := by
  by_cases hobject : object ∈ typeNames added
  · rw [kind?_of_new hnew hobject]
    simp [hobject]
  · rw [kind?_append_of_not_mem hobject]
    simp [hobject]

/-- The names of the old types are those of all types without the new ones, in the same order. -/
theorem eraseDups_typeNames_of_new :
    (typeNames definitions).eraseDups =
      (typeNames (definitions ++ added)).eraseDups.filter (· ∉ typeNames added) := by
  have happend : typeNames (definitions ++ added) = typeNames definitions ++ typeNames added :=
    List.filterMap_append
  have hold : (typeNames definitions).filter (· ∉ typeNames added) = typeNames definitions := by
    refine List.filter_eq_self.mpr fun name hname => ?_
    rw [decide_eq_true_iff]
    exact fun hadded => (hnew name hadded).1 hname
  have hnone : (typeNames added).filter (· ∉ typeNames added) = [] := by
    refine List.filter_eq_nil_iff.mpr fun name hname => ?_
    simpa using hname
  rw [filter_eraseDups, happend, List.filter_append, hold, hnone, List.append_nil]

theorem possibleTypes_of_new (hname : name ∉ typeNames added) :
    (ofDefinitions definitions).possibleTypes name =
      ((ofDefinitions (definitions ++ added)).possibleTypes name).filter (· ∉ typeNames added) := by
  have hkinds : (ofDefinitions (definitions ++ added)).kind? name = (ofDefinitions definitions).kind? name :=
    kind?_append_of_not_mem hname
  by_cases hunion : (ofDefinitions definitions).kind? name = some .union
  · rw [possibleTypes_of_union hunion, possibleTypes_of_union (hkinds.trans hunion),
      bodiesOf_append_of_not_mem hname, List.filter_filter]
    refine List.filter_congr fun object _ => ?_
    rw [Bool.eq_iff_iff, Bool.and_eq_true, decide_eq_true_iff, decide_eq_true_iff, decide_eq_true_iff]
    exact isObject_iff_of_new hnew
  by_cases hinterface : (ofDefinitions definitions).kind? name = some .interface
  · rw [possibleTypes_of_interface hinterface, possibleTypes_of_interface (hkinds.trans hinterface),
      eraseDups_typeNames_of_new hnew, List.filter_filter, List.filter_filter]
    refine List.filter_congr fun object _ => ?_
    by_cases hobject : object ∈ typeNames added
    · simp [hobject]
    · simp [hobject, kind?_append_of_not_mem hobject, bodiesOf_append_of_not_mem hobject]
  · rw [possibleTypes_of_neither hunion hinterface, possibleTypes_of_neither (hkinds ▸ hunion) (hkinds ▸ hinterface)]
    rfl

theorem growsBy_of_new :
    (ofDefinitions definitions).typeSystem.GrowsBy (typeNames added)
      (ofDefinitions (definitions ++ added)).typeSystem where
  kind _ hname := (kind?_append_of_not_mem hname).symm
  unknown _ := kind?_of_new hnew
  field type htype name := by
    have hbodies : bodiesOf (definitions ++ added) type = bodiesOf definitions type :=
      bodiesOf_append_of_not_mem htype
    show (ofDefinitions definitions).field? type name = (ofDefinitions (definitions ++ added)).field? type name
    rw [field?_ofDefinitions, field?_ofDefinitions, hbodies]
  possible _ := possibleTypes_of_new hnew

end Growth

end Schema

section Paths

variable {system grown : TypeSystem} {added : List Name} {fragments : Fragments} {naming? : Option FieldNaming}
  {discriminator? : Option (Name → Option String)} {discriminator : Name → Option String}
  {selections below : SelectionSet} {type : Name}

theorem conditions_of_reached {enters : Option Name → Prop} {place : Place} {alias? : Option Name}
    {name : Name} {arguments : List Argument} {directives : List Directive}
    (hreached : Reached fragments enters selections place
      (.field alias? name arguments directives below)) :
    SelectionSet.conditions below ⊆ SelectionSet.conditions selections ++ fragments.conditions := by
  generalize hitem : Selection.field alias? name arguments directives below = item at hreached
  induction hreached with
  | here hget =>
    subst hitem
    have hsubset := Selection.conditions_subset (List.mem_of_getElem? hget)
    exact List.Subset.trans hsubset (List.subset_append_left _ _)
  | inline hget _ _ ih =>
    have hsubset := Selection.conditions_subset (List.mem_of_getElem? hget)
    rw [Selection.conditions, List.append_subset] at hsubset
    intro condition hcondition
    exact List.mem_append.mpr ((List.mem_append.mp (ih hitem hcondition)).imp_left (hsubset.2 ·))
  | spread _ hfind _ _ ih =>
    have hsubset := Fragments.conditions_subset hfind
    rw [List.cons_subset] at hsubset
    intro condition hcondition
    refine List.mem_append_right _ ?_
    rcases List.mem_append.mp (ih hitem hcondition) with hfragment | hfragments
    · exact hsubset.2 hfragment
    · exact hfragments

theorem TypeSystem.GrowsBy.satisfies_eq (h : system.GrowsBy added grown) {condition object : Name}
    (hcondition : condition ∉ added) (hobject : object ∉ added) :
    system.satisfies condition object = grown.satisfies condition object := by
  unfold satisfies isPossible
  rw [h.kind condition hcondition, h.possible condition hcondition]
  simp [hobject]

/-- The discriminator without the added types. -/
def oldOnly (added : List Name) (discriminator : Name → Option String) (object : Name) : Option String :=
  if object ∈ added then none else discriminator object

/-- Types are left out alike by not listing them and by giving them no discriminator. -/
theorem concatMap_filter_added (compute : Name → Run (List Path)) (objects : List Name) :
    Run.concatMap (variantPaths discriminator compute) (objects.filter (· ∉ added)) =
      Run.concatMap (variantPaths (oldOnly added discriminator) compute) objects := by
  induction objects with
  | nil => rfl
  | cons object rest ih =>
    rw [Run.concatMap_cons, ← ih]
    unfold variantPaths oldOnly
    by_cases hadded : object ∈ added
    · rw [List.filter_cons_of_neg (by simpa using hadded), if_pos hadded]
      simp
    · rw [List.filter_cons_of_pos (by simpa using hadded), if_neg hadded]
      rfl

theorem TypeSystem.GrowsBy.expandedPaths_yields (h : system.GrowsBy added grown) {name : Name}
    (hname : name ∉ added) {compute computeGrown : Name → Run (List Path)}
    (hbelow : ∀ object, (compute object).Yields (· = ·) (computeGrown object)) :
    (expandedPaths system discriminator? compute name).Yields (· = ·)
      (expandedPaths grown (discriminator?.map (oldOnly added)) computeGrown name) := by
  unfold expandedPaths
  cases discriminator? with
  | none => exact Run.congruent_eq.yields_refl _
  | some discriminator =>
    rw [Option.map_some, Option.elim_some, Option.elim_some, ← concatMap_filter_added, h.possible name hname]
    exact Run.yields_concatMap Run.congruent_eq fun object _ => variantPaths_yields Run.congruent_eq (hbelow object)

theorem TypeSystem.GrowsBy.fieldPaths_yields (h : system.GrowsBy added grown)
    (hnaming : ∀ naming ∈ naming?, naming.IgnoresSystem) {field : AppliedField}
    {compute computeGrown : SelectionSet → Name → Run (List Path)}
    (hbelow : ∀ object, (compute field.selections object).Yields (· = ·) (computeGrown field.selections object)) :
    (fieldPaths system (.perType naming? discriminator?) compute type field).Yields (· = ·)
      (fieldPaths grown (.perType naming? (discriminator?.map (oldOnly added))) computeGrown type field) := by
  have hsegment : segmentOf grown naming? type field = segmentOf system naming? type field :=
    segmentOf_of_ignoresSystem hnaming
  have hold : ∀ kind, system.kind? field.returnType = some kind → field.returnType ∉ added := by
    intro kind hkind hadded
    rw [h.unknown _ hadded] at hkind
    cases hkind
  have hkinds : ∀ kind, system.kind? field.returnType = some kind → grown.kind? field.returnType = some kind :=
    fun kind hkind => h.kind _ (hold kind hkind) ▸ hkind
  refine QueryMask.fieldPaths_yields Run.congruent_eq hsegment hkinds Iff.rfl fun kind hkind => ?_
  exact subPaths_yields rfl (hbelow _) (h.expandedPaths_yields (hold kind hkind) hbelow)

/--
What succeeds on the old types succeeds with the new ones left out. On a new type nothing succeeds before, and on an
old one the same fields are collected, since no condition is about a new type.
-/
theorem TypeSystem.GrowsBy.pathsWithin_yields (h : system.GrowsBy added grown)
    (hnaming : ∀ naming ∈ naming?, naming.IgnoresSystem)
    (hconditions : ∀ condition ∈ SelectionSet.conditions selections ++ fragments.conditions, condition ∉ added)
    (depth : Nat) (type : Name) :
    (pathsWithin system fragments (.perType naming? discriminator?) depth selections type).Yields (· = ·)
      (pathsWithin grown fragments (.perType naming? (discriminator?.map (oldOnly added))) depth selections
        type) := by
  induction depth generalizing selections type with
  | zero =>
    intro paths hpaths
    cases hpaths
  | succ depth ih =>
    intro paths hpaths
    rw [pathsWithin_succ, Run.outcome_bind, bind_eq_ok_iff] at hpaths
    obtain ⟨fields, hfields, hpaths⟩ := hpaths
    obtain ⟨hkind, hcollect⟩ := appliedFields_eq_ok_iff.mp hfields
    have htype : type ∉ added := by
      intro hadded
      rw [h.unknown type hadded] at hkind
      cases hkind
    have hsame : collectFields system fragments type [] selections =
        collectFields grown fragments type [] selections :=
      collectFields_congr (h.field type htype) [] selections
        fun condition hcondition => h.satisfies_eq (hconditions condition hcondition) htype
    have happlied := appliedFields_eq_ok_iff.mpr ⟨h.kind type htype ▸ hkind, hsame ▸ hcollect⟩
    rw [pathsWithin_succ, happlied, Run.ofExcept_ok_bind]
    refine Run.yields_concatMap Run.congruent_eq (fun field hfield => ?_) paths hpaths
    obtain ⟨place, ⟨_, _, _, hreached⟩, -⟩ := exists_appliedAt hcollect hfield
    -- The selections below a reached field are part of the document, so their conditions are old as well.
    have hbelow : ∀ condition ∈ SelectionSet.conditions field.selections ++ fragments.conditions,
        condition ∉ added := by
      refine List.forall_mem_append.mpr ⟨fun condition hcondition => ?_, ?_⟩
      · exact hconditions condition (conditions_of_reached hreached hcondition)
      · exact (List.forall_mem_append.mp hconditions).2
    exact h.fieldPaths_yields hnaming fun object => ih hbelow object

theorem TypeSystem.GrowsBy.selectedPaths_eq (h : system.GrowsBy added grown) (hlisted : grown.Listed)
    (hnaming : ∀ naming ∈ naming?, naming.IgnoresSystem)
    (hconditions : ∀ condition ∈ SelectionSet.conditions selections ++ fragments.conditions, condition ∉ added)
    {paths : List Path}
    (hpaths : selectedPaths system fragments (.perType naming? discriminator?) selections type = .ok paths) :
    selectedPaths grown fragments (.perType naming? (discriminator?.map (oldOnly added))) selections type =
      .ok paths := by
  obtain ⟨found, hfound, rfl⟩ := h.pathsWithin_yields hnaming hconditions _ type paths hpaths
  exact TypeSystem.Bounds.selectedPaths_eq (.inr hlisted) hfound

end Paths

/-- The chain goes on below a field with a possible type of the added names. -/
def PassesThrough (system : TypeSystem) (fragments : Fragments) (added : List Name) :
    List Link → SelectionSet → Name → Prop
  | [], _, _ => False
  | link :: rest, selections, type => ∃ field : AppliedField,
    AppliedAt system fragments type selections link.place field ∧
      match link.variant? with
      | none => PassesThrough system fragments added rest field.selections field.returnType
      | some variant => ∃ object,
        (system.possibleTypes field.returnType)[variant.index]? = some object ∧
          (object ∈ added ∨ PassesThrough system fragments added rest field.selections object)

section Chains

variable {system : TypeSystem} {added : List Name} {fragments : Fragments} {naming? : Option FieldNaming}
  {discriminator : Name → Option String} {selections : SelectionSet} {type : Name} {place : Place}
  {field : AppliedField} {segment : String} {rest : List Link}

theorem passesThrough_object_iff (happlied : AppliedAt system fragments type selections place field) :
    PassesThrough system fragments added (⟨place, segment, none⟩ :: rest) selections type ↔
      PassesThrough system fragments added rest field.selections field.returnType := by
  constructor
  · rintro ⟨other, hother, hrest⟩
    obtain rfl := hother.unique happlied
    exact hrest
  · exact fun hrest => ⟨field, happlied, hrest⟩

theorem passesThrough_variant_iff (happlied : AppliedAt system fragments type selections place field)
    {variant : Variant} {object : Name}
    (hindex : (system.possibleTypes field.returnType)[variant.index]? = some object) :
    PassesThrough system fragments added (⟨place, segment, some variant⟩ :: rest) selections type ↔
      object ∈ added ∨ PassesThrough system fragments added rest field.selections object := by
  constructor
  · rintro ⟨other, hother, object', hindex', hrest⟩
    obtain rfl := hother.unique happlied
    obtain rfl := Option.some.inj (hindex.symm.trans hindex')
    exact hrest
  · exact fun hrest => ⟨field, happlied, object, hindex, hrest⟩

/-- Of the complete chains, those through an added type are the ones that the old types leave out. -/
theorem CompleteChain.passesLeftOut_iff {chain : List Link}
    (h : CompleteChain system fragments naming? (some discriminator) chain selections type) :
    PassesLeftOut system fragments naming? (some (oldOnly added discriminator)) chain selections type ↔
      PassesThrough system fragments added chain selections type := by
  induction chain generalizing selections type with
  | nil => exact h.elim
  | cons link rest ih =>
    obtain ⟨field, happlied, hpossible⟩ := h.applies
    obtain ⟨place, segment, variant?⟩ := link
    cases variant? with
    | none =>
      obtain ⟨hsegment, hrest⟩ := (completeChain_object_iff happlied).mp h
      rw [passesLeftOut_object_iff happlied, passesThrough_object_iff happlied, hsegment]
      rcases hrest with ⟨-, rfl⟩ | ⟨-, -, hrest⟩
      · simp [PassesLeftOut, PassesThrough]
      · simpa using ih hrest
    | some variant =>
      obtain ⟨object, hindex⟩ := hpossible variant rfl
      obtain ⟨hsegment, -, -, htext, hrest⟩ := (completeChain_variant_iff happlied hindex).mp h
      have hold : (some (oldOnly added discriminator)).bind (· object) = none ↔ object ∈ added := by
        have hanswer : discriminator object = some variant.discriminator := htext
        simp [oldOnly, hanswer]
      rw [passesLeftOut_variant_iff happlied hindex, passesThrough_variant_iff happlied hindex, hsegment,
        hold, ih hrest]
      simp

end Chains

theorem restricts_oldOnly (system : TypeSystem) (naming? : Option FieldNaming) (added : List Name)
    (discriminator : Name → Option String) :
    Restricts system naming? (some discriminator) naming? (some (oldOnly added discriminator)) where
  field _ _ _ := .inr rfl
  type := by
    intro fewer hfewer
    obtain rfl := Option.some.inj hfewer
    refine ⟨discriminator, rfl, fun object => ?_⟩
    unfold oldOnly
    by_cases hadded : object ∈ added
    · exact .inl (if_pos hadded)
    · exact .inr (if_neg hadded)

open Classical in
/--
Growing a schema by types with new names only adds paths. If no condition of a document is about a new type, and the
naming does not look at other types, then without expansion the paths stay the same. With an expansion the old paths
are a subsequence of the new ones, and the others are those of chains that pass through a new possible type.
-/
theorem Schema.paths_of_growth {definitions added : List SchemaDefinition}
    (hnew : ∀ name ∈ typeNames added, name ∉ typeNames definitions ∧ name ∉ builtinScalars)
    {fragments : Fragments} {selections : SelectionSet}
    (hconditions : ∀ condition ∈ SelectionSet.conditions selections ++ fragments.conditions,
      condition ∉ typeNames added)
    {naming? : Option FieldNaming} (hnaming : ∀ naming ∈ naming?, naming.IgnoresSystem) (type : Name) :
    (∀ paths, selectedPaths (ofDefinitions definitions).typeSystem fragments (.perType naming? none) selections
        type = .ok paths →
      selectedPaths (ofDefinitions (definitions ++ added)).typeSystem fragments (.perType naming? none) selections
        type = .ok paths) ∧
    ∀ (discriminator : Name → Option String) (paths whole : List Path),
      selectedPaths (ofDefinitions definitions).typeSystem fragments (.perType naming? (some discriminator))
        selections type = .ok paths →
      selectedPaths (ofDefinitions (definitions ++ added)).typeSystem fragments
        (.perType naming? (some discriminator)) selections type = .ok whole →
      paths.Sublist whole ∧
      ∃ chains : List (List Link), chains.Pairwise (List.Lex Link.Before) ∧ chains.Nodup ∧
        (∀ chain, chain ∈ chains ↔ CompleteChain (ofDefinitions (definitions ++ added)).typeSystem fragments
          naming? (some discriminator) chain selections type) ∧
        whole = chains.map chainPath ∧
        paths = (chains.filter fun chain => ¬ PassesThrough (ofDefinitions (definitions ++ added)).typeSystem
          fragments (typeNames added) chain selections type).map chainPath := by
  have hgrows := growsBy_of_new hnew
  constructor
  · intro paths hpaths
    exact hgrows.selectedPaths_eq (Schema.listed _) hnaming hconditions hpaths
  intro discriminator paths whole hpaths hwhole
  have hold := hgrows.selectedPaths_eq (Schema.listed _) hnaming hconditions hpaths
  obtain ⟨chains, hordered, hmem, hchains⟩ := enumerated_pathsWithin hwhole
  obtain ⟨oldChains, holdOrdered, holdMem, holdChains⟩ := enumerated_pathsWithin hold
  have hrestricts := restricts_oldOnly (ofDefinitions (definitions ++ added)).typeSystem naming?
    (typeNames added) discriminator
  have hnodup : chains.Nodup := hordered.imp fun hlt => by
    rintro rfl
    exact asymm hlt hlt
  have hsame : oldChains = chains.filter fun chain => ¬ PassesThrough
      (ofDefinitions (definitions ++ added)).typeSystem fragments (typeNames added) chain selections type := by
    refine holdOrdered.eq_of_mem_iff (hordered.filter _) fun chain => ?_
    simp only [holdMem, List.mem_filter, hmem, decide_eq_true_iff, Option.map_some, hrestricts.completeChain_iff]
    exact and_congr_right fun hchain => not_congr hchain.passesLeftOut_iff
  rw [holdChains, hsame, hchains]
  exact ⟨List.filter_sublist.map chainPath, chains, hordered, hnodup, hmem, rfl, rfl⟩

namespace Pets

def parrots : List SchemaDefinition := [typeOf "Parrot" (.object ["Animal"] [fieldOf "name" "String"])]

open Classical in
theorem paths_with_parrots :
    (∀ name ∈ typeNames parrots, name ∉ typeNames definitions ∧ name ∉ Schema.builtinScalars) ∧
      (∀ condition ∈ SelectionSet.conditions selections ++ fragments.conditions,
        condition ∉ typeNames parrots) ∧
      (FieldNaming.byDirective "fieldMask").IgnoresSystem ∧
      selectedPaths schema.typeSystem fragments (.perType (some (.byDirective "fieldMask")) (some some))
          selections "Owner" = .ok ["id", "pet.Dog.name", "pet.Dog.breed", "pet.Cat.name"] ∧
      selectedPaths (Schema.ofDefinitions (definitions ++ parrots)).typeSystem fragments
          (.perType (some (.byDirective "fieldMask")) (some some)) selections "Owner" =
        .ok ["id", "pet.Dog.name", "pet.Dog.breed", "pet.Cat.name", "pet.Parrot.name"] ∧
      ∃ chains : List (List Link),
        ["id", "pet.Dog.name", "pet.Dog.breed", "pet.Cat.name", "pet.Parrot.name"] = chains.map chainPath ∧
        ["id", "pet.Dog.name", "pet.Dog.breed", "pet.Cat.name"] =
          (chains.filter fun chain => ¬ PassesThrough (Schema.ofDefinitions (definitions ++ parrots)).typeSystem
            fragments (typeNames parrots) chain selections "Owner").map chainPath := by
  have hnew : ∀ name ∈ typeNames parrots, name ∉ typeNames definitions ∧ name ∉ Schema.builtinScalars := by
    decide
  have hconditions : ∀ condition ∈ SelectionSet.conditions selections ++ fragments.conditions,
      condition ∉ typeNames parrots := by
    decide
  have hnaming := FieldNaming.byDirective_ignoresSystem "fieldMask"
  have hpaths : selectedPaths schema.typeSystem fragments (.perType (some (.byDirective "fieldMask")) (some some))
      selections "Owner" = .ok ["id", "pet.Dog.name", "pet.Dog.breed", "pet.Cat.name"] := by cbv
  have hwhole : selectedPaths (Schema.ofDefinitions (definitions ++ parrots)).typeSystem fragments
      (.perType (some (.byDirective "fieldMask")) (some some)) selections "Owner" =
        .ok ["id", "pet.Dog.name", "pet.Dog.breed", "pet.Cat.name", "pet.Parrot.name"] := by cbv
  obtain ⟨-, hexpanded⟩ := Schema.paths_of_growth hnew hconditions
    (fun naming hmem => Option.some.inj hmem ▸ hnaming) "Owner"
  obtain ⟨-, chains, -, -, -, hchains, hkept⟩ := hexpanded some _ _ hpaths hwhole
  exact ⟨hnew, hconditions, hnaming, hpaths, hwhole, chains, hchains, hkept⟩

end Pets

end QueryMask
