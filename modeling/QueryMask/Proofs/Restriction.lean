import QueryMask.Mask.Naming
import QueryMask.Proofs.Chains
import QueryMask.Proofs.Declarations
import Mathlib

/-! Settings that leave out more fields or possible types. They remove the paths of the chains that pass through
something left out, and no others. -/

namespace QueryMask

/--
Later settings against earlier ones: for a field that a type defines, the naming leaves the field out or answers
as before, and possible types are expanded only if they were, under no discriminator or the same.
-/
structure Restricts (system : TypeSystem) (naming? : Option FieldNaming)
    (discriminator? : Option (Name → Option String)) (fewerFields? : Option FieldNaming)
    (fewerTypes? : Option (Name → Option String)) : Prop where
  field : ∀ parent (field : AppliedField), system.field? parent field.name = some field.definition →
    segmentOf system fewerFields? parent field = none ∨
      segmentOf system fewerFields? parent field = segmentOf system naming? parent field
  type : ∀ fewer ∈ fewerTypes?, ∃ discriminator ∈ discriminator?,
    ∀ object, fewer object = none ∨ fewer object = discriminator object

/-- The chain passes through a field that the settings leave out, or through a possible type that they leave out. -/
def PassesLeftOut (system : TypeSystem) (fragments : Fragments) (naming? : Option FieldNaming)
    (discriminator? : Option (Name → Option String)) : List Link → SelectionSet → Name → Prop
  | [], _, _ => False
  | link :: rest, selections, type => ∃ field : AppliedField,
    AppliedAt system fragments type selections link.place field ∧
      (segmentOf system naming? type field = none ∨
        match link.variant? with
        | none => PassesLeftOut system fragments naming? discriminator? rest field.selections field.returnType
        | some variant => ∃ object,
          (system.possibleTypes field.returnType)[variant.index]? = some object ∧
            (discriminator?.bind (· object) = none ∨
              PassesLeftOut system fragments naming? discriminator? rest field.selections object))

section Restriction

variable {system : TypeSystem} {fragments : Fragments} {naming? fewerFields? : Option FieldNaming}
  {discriminator? fewerTypes? : Option (Name → Option String)} {selections : SelectionSet} {type : Name}

/-! One link of a chain, at the field that applies there. -/

section Links

variable {place : Place} {field : AppliedField} {segment : String} {rest : List Link}

/-- A field applies at the place of the link, and returns a type that has the chosen possible type. -/
def Link.Applies (system : TypeSystem) (fragments : Fragments) (selections : SelectionSet) (type : Name)
    (link : Link) : Prop :=
  ∃ field, AppliedAt system fragments type selections link.place field ∧ ∀ variant ∈ link.variant?,
    ∃ object, (system.possibleTypes field.returnType)[variant.index]? = some object

theorem CompleteChain.applies {link : Link}
    (h : CompleteChain system fragments naming? discriminator? (link :: rest) selections type) :
    link.Applies system fragments selections type := by
  obtain ⟨place, segment, variant?⟩ := link
  obtain ⟨field, happlied, -, hrest⟩ := h
  refine ⟨field, happlied, ?_⟩
  rintro variant rfl
  obtain ⟨-, -, _, object, -, hindex, -⟩ := hrest
  exact ⟨object, hindex⟩

theorem completeChain_object_iff
    (happlied : AppliedAt system fragments type selections place field) :
    CompleteChain system fragments naming? discriminator? (⟨place, segment, none⟩ :: rest) selections type ↔
      segmentOf system naming? type field = some segment ∧
        ((field.IsLeaf system ∧ rest = []) ∨
          (field.selections ≠ [] ∧ system.kind? field.returnType = some .object ∧
            CompleteChain system fragments naming? discriminator? rest field.selections field.returnType)) := by
  constructor
  · rintro ⟨other, hother, hrest⟩
    obtain rfl := hother.unique happlied
    exact hrest
  · exact fun hrest => ⟨field, happlied, hrest⟩

theorem completeChain_variant_iff
    (happlied : AppliedAt system fragments type selections place field) {variant : Variant} {object : Name}
    (hindex : (system.possibleTypes field.returnType)[variant.index]? = some object) :
    CompleteChain system fragments naming? discriminator? (⟨place, segment, some variant⟩ :: rest)
        selections type ↔
      segmentOf system naming? type field = some segment ∧ field.selections ≠ [] ∧
        (system.kind? field.returnType).any TypeKind.isAbstract = true ∧
        discriminator?.bind (· object) = some variant.discriminator ∧
        CompleteChain system fragments naming? discriminator? rest field.selections object := by
  constructor
  · rintro ⟨other, hother, hsegment, hne, hkind, discriminator, object', hdiscriminator, hindex', htext, hrest⟩
    obtain rfl := hother.unique happlied
    obtain rfl := Option.some.inj (hindex.symm.trans hindex')
    exact ⟨hsegment, hne, hkind, Option.bind_eq_some_iff.mpr ⟨discriminator, hdiscriminator, htext⟩, hrest⟩
  · rintro ⟨hsegment, hne, hkind, hbind, hrest⟩
    obtain ⟨discriminator, hdiscriminator, htext⟩ := Option.bind_eq_some_iff.mp hbind
    exact ⟨field, happlied, hsegment, hne, hkind, discriminator, object, hdiscriminator, hindex, htext, hrest⟩

theorem passesLeftOut_object_iff
    (happlied : AppliedAt system fragments type selections place field) :
    PassesLeftOut system fragments naming? discriminator? (⟨place, segment, none⟩ :: rest) selections type ↔
      segmentOf system naming? type field = none ∨
        PassesLeftOut system fragments naming? discriminator? rest field.selections field.returnType := by
  constructor
  · rintro ⟨other, hother, hleft⟩
    obtain rfl := hother.unique happlied
    exact hleft
  · exact fun hleft => ⟨field, happlied, hleft⟩

theorem passesLeftOut_variant_iff
    (happlied : AppliedAt system fragments type selections place field) {variant : Variant} {object : Name}
    (hindex : (system.possibleTypes field.returnType)[variant.index]? = some object) :
    PassesLeftOut system fragments naming? discriminator? (⟨place, segment, some variant⟩ :: rest)
        selections type ↔
      segmentOf system naming? type field = none ∨ discriminator?.bind (· object) = none ∨
        PassesLeftOut system fragments naming? discriminator? rest field.selections object := by
  constructor
  · rintro ⟨other, hother, hleft⟩
    obtain rfl := hother.unique happlied
    refine hleft.imp_right ?_
    rintro ⟨object', hindex', hleft⟩
    obtain rfl := Option.some.inj (hindex.symm.trans hindex')
    exact hleft
  · exact fun hleft => ⟨field, happlied, hleft.imp_right fun hleft => ⟨object, hindex, hleft⟩⟩

end Links

namespace Restricts

private theorem eq_some_iff_of_none_or_eq {α : Type} {before after : Option α} {answer : α}
    (h : after = none ∨ after = before) : after = some answer ↔ before = some answer ∧ after ≠ none := by
  rcases h with rfl | rfl
  · simp
  · exact ⟨fun hanswer => ⟨hanswer, by simp [hanswer]⟩, And.left⟩

theorem segment_eq_some_iff (h : Restricts system naming? discriminator? fewerFields? fewerTypes?)
    {place : Place} {field : AppliedField} {segment : String}
    (happlied : AppliedAt system fragments type selections place field) :
    segmentOf system fewerFields? type field = some segment ↔
      segmentOf system naming? type field = some segment ∧
        segmentOf system fewerFields? type field ≠ none :=
  eq_some_iff_of_none_or_eq (h.field type field happlied.2.2)

theorem discriminator_eq_some_iff (h : Restricts system naming? discriminator? fewerFields? fewerTypes?)
    {object : Name} {text : String} :
    fewerTypes?.bind (· object) = some text ↔
      discriminator?.bind (· object) = some text ∧ fewerTypes?.bind (· object) ≠ none := by
  refine eq_some_iff_of_none_or_eq ?_
  cases hfewer : fewerTypes? with
  | none => exact .inl rfl
  | some fewer =>
    obtain ⟨discriminator, hdiscriminator, hanswers⟩ := h.type fewer hfewer
    obtain rfl : discriminator? = some discriminator := hdiscriminator
    exact hanswers object

/-- The complete chains that remain are those that pass through nothing left out. -/
theorem completeChain_iff (h : Restricts system naming? discriminator? fewerFields? fewerTypes?)
    {chain : List Link} :
    CompleteChain system fragments fewerFields? fewerTypes? chain selections type ↔
      CompleteChain system fragments naming? discriminator? chain selections type ∧
        ¬ PassesLeftOut system fragments fewerFields? fewerTypes? chain selections type := by
  induction chain generalizing selections type with
  | nil => simp [CompleteChain]
  | cons link rest ih =>
    -- Without a field at the place, the chain is complete under neither of the settings.
    by_cases hlink : link.Applies system fragments selections type
    · obtain ⟨field, happlied, hpossible⟩ := hlink
      obtain ⟨place, segment, variant?⟩ := link
      cases variant? with
      | none =>
        have hend : rest = [] → ¬ PassesLeftOut system fragments fewerFields? fewerTypes? rest
            field.selections field.returnType := by
          rintro rfl
          exact id
        rw [completeChain_object_iff happlied, completeChain_object_iff happlied,
          passesLeftOut_object_iff happlied, h.segment_eq_some_iff happlied, ih]
        tauto
      | some variant =>
        obtain ⟨object, hindex⟩ := hpossible variant rfl
        rw [completeChain_variant_iff happlied hindex, completeChain_variant_iff happlied hindex,
          passesLeftOut_variant_iff happlied hindex, h.segment_eq_some_iff happlied,
          h.discriminator_eq_some_iff, ih]
        tauto
    · exact iff_of_false (fun hchain => hlink hchain.applies) fun hchain => hlink hchain.1.applies

theorem exists_subPaths (h : Restricts system naming? discriminator? fewerFields? fewerTypes?)
    {compute fewer : SelectionSet → Name → Run (List Path)}
    (hcompute : ∀ selections type paths, (compute selections type).outcome = .ok paths →
      ∃ kept, (fewer selections type).outcome = .ok kept)
    {field : AppliedField} {kind : TypeKind} {below : List Path}
    (hbelow : (subPaths system (.perType naming? discriminator?) compute type field kind).outcome = .ok below) :
    ∃ kept, (subPaths system (.perType fewerFields? fewerTypes?) fewer type field kind).outcome = .ok kept := by
  rw [subPaths_perType] at hbelow ⊢
  split_ifs at hbelow ⊢
  · exact hcompute _ _ _ hbelow
  · cases hfewerTypes : fewerTypes? with
    | none => exact ⟨[], rfl⟩
    | some fewerType =>
      subst hfewerTypes
      obtain ⟨discriminator, hdiscriminator, -⟩ := h.type fewerType rfl
      obtain rfl : discriminator? = some discriminator := hdiscriminator
      rw [Option.elim_some, Run.bind_eq_of_ok _ rfl] at hbelow ⊢
      obtain ⟨hparts, -⟩ := Run.outcome_concatMap_eq_ok_iff.mp hbelow
      refine Run.exists_outcome_concatMap fun object hobject => ?_
      have hpart := hparts object hobject
      unfold variantPaths at hpart ⊢
      cases hfewer : fewerType object with
      | none => exact ⟨[], rfl⟩
      | some text =>
        have hbefore : discriminator object = some text := (h.discriminator_eq_some_iff.mp hfewer).1
        simp only [hbefore] at hpart
        obtain ⟨paths, hpaths, -⟩ := Run.outcome_bind_pure_eq_ok_iff.mp hpart
        obtain ⟨kept, hkept⟩ := hcompute _ _ _ hpaths
        exact ⟨_, Run.outcome_bind_pure_eq_ok_iff.mpr ⟨kept, hkept, rfl⟩⟩

theorem exists_fieldPaths (h : Restricts system naming? discriminator? fewerFields? fewerTypes?)
    {compute fewer : SelectionSet → Name → Run (List Path)}
    (hcompute : ∀ selections type paths, (compute selections type).outcome = .ok paths →
      ∃ kept, (fewer selections type).outcome = .ok kept)
    {place : Place} {field : AppliedField}
    (happlied : AppliedAt system fragments type selections place field) {paths : List Path}
    (hpaths : (fieldPaths system (.perType naming? discriminator?) compute type field).outcome = .ok paths) :
    ∃ kept, (fieldPaths system (.perType fewerFields? fewerTypes?) fewer type field).outcome = .ok kept := by
  -- A field that is left out no longer fails, since its return type is not looked up.
  cases hkept : segmentOf system fewerFields? type field with
  | none => exact ⟨[], outcome_fieldPaths_eq_ok_iff.mpr (.inl ⟨hkept, rfl⟩)⟩
  | some segment =>
    obtain ⟨hsegment, -⟩ := (h.segment_eq_some_iff happlied).mp hkept
    rcases outcome_fieldPaths_eq_ok_iff.mp hpaths with ⟨hnone, -⟩ | ⟨_, kind, -, hkind, hcase⟩
    · exact absurd (hsegment.symm.trans hnone) (by simp)
    · simp only [outcome_fieldPaths_eq_ok_iff]
      rcases hcase with ⟨hleaf, -⟩ | ⟨hcomposite, hne, below, hbelow, -⟩
      · exact ⟨_, .inr ⟨segment, kind, hkept, hkind, .inl ⟨hleaf, rfl⟩⟩⟩
      · obtain ⟨kept, hkeptBelow⟩ := h.exists_subPaths hcompute hbelow
        exact ⟨_, .inr ⟨segment, kind, hkept, hkind, .inr ⟨hcomposite, hne, kept, hkeptBelow, rfl⟩⟩⟩

theorem exists_pathsWithin (h : Restricts system naming? discriminator? fewerFields? fewerTypes?)
    {depth : Nat} {paths : List Path}
    (hpaths : (pathsWithin system fragments (.perType naming? discriminator?) depth selections
      type).outcome = .ok paths) :
    ∃ kept, (pathsWithin system fragments (.perType fewerFields? fewerTypes?) depth selections
      type).outcome = .ok kept := by
  induction depth generalizing selections type paths with
  | zero => simp [pathsWithin] at hpaths
  | succ depth ih =>
    rw [pathsWithin, Run.outcome_bind, bind_eq_ok_iff] at hpaths
    obtain ⟨fields, hfields, hpaths⟩ := hpaths
    obtain ⟨hparts, -⟩ := Run.outcome_concatMap_eq_ok_iff.mp hpaths
    rw [pathsWithin, Run.bind_eq_of_ok _ hfields]
    refine Run.exists_outcome_concatMap fun field hfield => ?_
    obtain ⟨place, happlied⟩ := exists_appliedAt (appliedFields_eq_ok_iff.mp hfields).2 hfield
    exact h.exists_fieldPaths (fun _ _ _ hbelow => ih hbelow) happlied (hparts field hfield)

end Restricts

end Restriction

open Classical in
/--
Settings that leave out more remove the paths below what they leave out, and change nothing else. If the run
succeeds under the earlier settings, it does under the later ones, and its paths are those of the chains that
pass through no field and no possible type that is left out: in the same order, and as often.
-/
theorem selectedPaths_restricted {system : TypeSystem} {naming? fewerFields? : Option FieldNaming}
    {discriminator? fewerTypes? : Option (Name → Option String)}
    (hrestricts : Restricts system naming? discriminator? fewerFields? fewerTypes?) {fragments : Fragments}
    {selections : SelectionSet} {type : Name} {paths : List Path}
    (h : selectedPaths system fragments (.perType naming? discriminator?) selections type = .ok paths) :
    ∃ chains : List (List Link), chains.Pairwise (List.Lex Link.Before) ∧ chains.Nodup ∧
      (∀ chain, chain ∈ chains ↔
        CompleteChain system fragments naming? discriminator? chain selections type) ∧
      paths = chains.map chainPath ∧
      selectedPaths system fragments (.perType fewerFields? fewerTypes?) selections type =
        .ok ((chains.filter fun chain =>
          ¬ PassesLeftOut system fragments fewerFields? fewerTypes? chain selections type).map chainPath) := by
  obtain ⟨chains, hordered, hmem, hpaths⟩ := enumerated_pathsWithin h
  obtain ⟨kept, hkept⟩ := hrestricts.exists_pathsWithin h
  obtain ⟨keptChains, hkeptOrdered, hkeptMem, rfl⟩ := enumerated_pathsWithin hkept
  have hnodup : chains.Nodup := hordered.imp fun hlt => by
    rintro rfl
    exact asymm hlt hlt
  have hsame : keptChains = chains.filter fun chain =>
      ¬ PassesLeftOut system fragments fewerFields? fewerTypes? chain selections type := by
    refine hkeptOrdered.eq_of_mem_iff (hordered.filter _) fun chain => ?_
    simp only [hkeptMem, hrestricts.completeChain_iff, List.mem_filter, hmem, decide_eq_true_iff]
  exact ⟨chains, hordered, hnodup, hmem, hpaths, hsame ▸ hkept⟩

namespace Pets

/-! Here the breed of dogs is left out, and cats are. -/

def fewerFields : FieldNaming := .byTable [("Dog.breed", none)]

def fewerTypes : Name → Option String := AbstractExpansion.byTable [("Cat", none)]

theorem restricts : Restricts schema.typeSystem none (some some) (some fewerFields) (some fewerTypes) where
  field parent field hfield := by
    obtain ⟨_, _, _, hname⟩ := Schema.mem_of_field? hfield
    simp only [segmentOf, Option.elim_some, Option.elim_none, fewerFields, FieldNaming.byTable,
      List.lookup_cons, List.lookup_nil, hname]
    cases parent ++ "." ++ field.name == "Dog.breed" <;> cases "*." ++ field.name == "Dog.breed" <;> simp
  type := by
    intro fewer hfewer
    obtain rfl := Option.some.inj hfewer
    refine ⟨some, rfl, fun object => ?_⟩
    simp only [fewerTypes, AbstractExpansion.byTable, List.lookup_cons, List.lookup_nil]
    cases object == "Cat" <;> simp

open Classical in
theorem paths_of_fewer :
    Restricts schema.typeSystem none (some some) (some fewerFields) (some fewerTypes) ∧
      selectedPaths schema.typeSystem fragments (.perType none (some some)) selections "Owner" =
        .ok ["id", "pet.Dog.name", "pet.Dog.breed", "pet.Cat.name"] ∧
      ∃ chains : List (List Link),
        ["id", "pet.Dog.name", "pet.Dog.breed", "pet.Cat.name"] = chains.map chainPath ∧
        ["id", "pet.Dog.name"] = (chains.filter fun chain => ¬ PassesLeftOut schema.typeSystem fragments
          (some fewerFields) (some fewerTypes) chain selections "Owner").map chainPath := by
  have hpaths : selectedPaths schema.typeSystem fragments (.perType none (some some)) selections "Owner" =
      .ok ["id", "pet.Dog.name", "pet.Dog.breed", "pet.Cat.name"] := by cbv
  have hfewer : selectedPaths schema.typeSystem fragments (.perType (some fewerFields) (some fewerTypes))
      selections "Owner" = .ok ["id", "pet.Dog.name"] := by cbv
  obtain ⟨chains, -, -, -, hchains, hkept⟩ := selectedPaths_restricted restricts hpaths
  exact ⟨restricts, hpaths, chains, hchains, Except.ok.inj (hfewer.symm.trans hkept)⟩

end Pets

end QueryMask
