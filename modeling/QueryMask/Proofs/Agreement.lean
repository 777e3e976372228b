import QueryMask.Proofs.Contributions

/-! The paths of the selections at a response path agree with what the field contributes from the root. -/

namespace QueryMask

/--
What the fields of a name contribute is made of the paths of their merged selections: those on a returned
object type, or those on each possible type of a returned abstract type, under the segment.
-/
structure PathsAgree (system : TypeSystem) (fragments : Fragments) (naming? : Option FieldNaming)
    (discriminator? : Option (Name → Option String)) (segment : String) (returnType : Name)
    (merged : SelectionSet) (contributed : List Path) : Prop where
  object : system.kind? returnType = some .object →
    ∃ below, selectedPaths system fragments (.perType naming? discriminator?) merged returnType =
        .ok below ∧
      contributed = below.map (Path.join segment)
  unexpanded : (system.kind? returnType).any TypeKind.isAbstract = true → discriminator? = none →
    contributed = []
  expanded : ∀ discriminator, (system.kind? returnType).any TypeKind.isAbstract = true →
    discriminator? = some discriminator → ∃ below : Name → List Path,
      (∀ object ∈ system.possibleTypes returnType, ∀ text, discriminator object = some text →
        selectedPaths system fragments (.perType naming? discriminator?) merged object =
            .ok (below object) ∧
          ((below object).map fun path => Path.join segment (Path.join text path)).Sublist
            contributed) ∧
      contributed.Perm ((system.possibleTypes returnType).flatMap fun object =>
        (discriminator object).elim [] fun text =>
          (below object).map fun path => Path.join segment (Path.join text path))

private theorem flatMap_comm_perm {α β γ : Type} (first : List α) (second : List β) (f : α → β → List γ) :
    (first.flatMap fun a => second.flatMap (f a)).Perm
      (second.flatMap fun b => first.flatMap fun a => f a b) := by
  rw [← Multiset.coe_eq_coe]
  have h := Multiset.bind_bind (first : Multiset α) (second : Multiset β)
    (f := fun a b => (f a b : Multiset γ))
  simpa only [Multiset.coe_bind] using h

section Entries

variable {system : TypeSystem} {fragments : Fragments} {naming? : Option FieldNaming}
  {discriminator? : Option (Name → Option String)} {entries : List AppliedField} {type returnType : Name}
  {segment : String}

/-- Fields that lead to one return type and contribute under one segment. -/
structure Siblings (system : TypeSystem) (fragments : Fragments) (naming? : Option FieldNaming)
    (discriminator? : Option (Name → Option String)) (type : Name) (segment : String)
    (returnType : Name) (entries : List AppliedField) : Prop where
  returns : ∀ entry ∈ entries, entry.returnType = returnType
  segment : ∀ entry ∈ entries, segmentOf system naming? type entry = some segment
  below : ∀ entry ∈ entries, entry.selections ≠ []
  parts : ∀ entry ∈ entries, (fieldPaths system (.perType naming? discriminator?)
    (pathsRun system fragments (.perType naming? discriminator?)) type entry).outcome =
      .ok (contribution system fragments (.perType naming? discriminator?) type entry)

theorem Siblings.object
    (h : Siblings system fragments naming? discriminator? type segment returnType entries)
    (hkind : system.kind? returnType = some .object) :
    ∀ entry ∈ entries, selectedPaths system fragments (.perType naming? discriminator?)
        entry.selections returnType = .ok (pathsRun system fragments
          (.perType naming? discriminator?) entry.selections returnType).results ∧
      contribution system fragments (.perType naming? discriminator?) type entry =
        (pathsRun system fragments (.perType naming? discriminator?) entry.selections
          returnType).results.map (Path.join segment) := by
  intro entry hmem
  have hentry := contribution_object (h.parts entry hmem) (h.segment entry hmem)
    (by rwa [h.returns entry hmem]) (h.below entry hmem)
  rwa [h.returns entry hmem] at hentry

theorem Siblings.expanded {discriminator : Name → Option String}
    (h : Siblings system fragments naming? (some discriminator) type segment returnType entries)
    (habstract : (system.kind? returnType).any TypeKind.isAbstract = true) :
    ∀ entry ∈ entries,
      (∀ object ∈ system.possibleTypes returnType, (discriminator object).isSome = true →
        selectedPaths system fragments (.perType naming? (some discriminator)) entry.selections
          object = .ok (pathsRun system fragments (.perType naming? (some discriminator))
            entry.selections object).results) ∧
      contribution system fragments (.perType naming? (some discriminator)) type entry =
        (system.possibleTypes returnType).flatMap (variantContribution system fragments
          (.perType naming? (some discriminator)) discriminator segment entry.selections) := by
  intro entry hmem
  obtain ⟨kind, hkind, hkindAbstract⟩ := (Option.any_eq_true _ _).mp habstract
  have hentry := contribution_expanded (h.parts entry hmem) (h.segment entry hmem)
    (by rwa [h.returns entry hmem]) hkindAbstract (h.below entry hmem)
  rwa [h.returns entry hmem] at hentry

/-- The merged selections of siblings have their paths on a possible type, one sibling after another. -/
theorem Siblings.selectedPaths_merged {discriminator : Name → Option String} (hbounds : system.Bounds fragments)
    (h : Siblings system fragments naming? (some discriminator) type segment returnType entries)
    (hnonempty : entries ≠ [])
    (habstract : (system.kind? returnType).any TypeKind.isAbstract = true) {object : Name}
    (hpossible : object ∈ system.possibleTypes returnType)
    (hsome : (discriminator object).isSome = true) :
    selectedPaths system fragments (.perType naming? (some discriminator))
        (entries.map (·.selections)).flatten object =
      .ok (entries.flatMap fun entry => (pathsRun system fragments
        (.perType naming? (some discriminator)) entry.selections object).results) := by
  have hentry := h.expanded habstract
  obtain ⟨first, hfirst⟩ := List.exists_mem_of_ne_nil _ hnonempty
  have hkind := kind_of_selectedPaths hbounds ((hentry first hfirst).1 object hpossible hsome)
  have hmerged : selectedPaths system fragments (.perType naming? (some discriminator))
      (entries.map (·.selections)).flatten object = _ :=
    selectedPaths_flatten hbounds hkind fun set hset => by
      obtain ⟨entry, hmem, rfl⟩ := List.mem_map.mp hset
      exact (hentry entry hmem).1 object hpossible hsome
  rwa [List.flatMap_map] at hmerged

/-- Siblings agree with their merged selections. -/
theorem Siblings.pathsAgree (hbounds : system.Bounds fragments)
    (h : Siblings system fragments naming? discriminator? type segment returnType entries)
    (hnonempty : entries ≠ []) :
    PathsAgree system fragments naming? discriminator? segment returnType
      (entries.map (·.selections)).flatten
      (entries.flatMap (contribution system fragments (.perType naming? discriminator?) type)) where
  object := by
    intro hkind
    have hentry := h.object hkind
    refine ⟨_, selectedPaths_flatten hbounds hkind ?_, ?_⟩
    · intro set hset
      obtain ⟨entry, hmem, rfl⟩ := List.mem_map.mp hset
      exact (hentry entry hmem).1
    · rw [List.flatMap_map, List.map_flatMap]
      exact List.flatMap_congr fun entry hmem => (hentry entry hmem).2
  unexpanded := by
    rintro habstract rfl
    obtain ⟨kind, hkind, hkindAbstract⟩ := (Option.any_eq_true _ _).mp habstract
    refine List.flatMap_eq_nil_iff.mpr fun entry hmem => ?_
    exact contribution_unexpanded (h.parts entry hmem) (h.segment entry hmem)
      (by rwa [h.returns entry hmem]) hkindAbstract (h.below entry hmem)
  expanded := by
    rintro discriminator habstract rfl
    have hentry := h.expanded habstract
    refine ⟨fun object => entries.flatMap fun entry => (pathsRun system fragments
      (.perType naming? (some discriminator)) entry.selections object).results, ?_, ?_⟩
    · intro object hpossible text htext
      refine ⟨h.selectedPaths_merged hbounds hnonempty habstract hpossible (by simp [htext]), ?_⟩
      rw [List.map_flatMap]
      refine List.Sublist.flatMap_right entries fun entry hmem => ?_
      rw [(hentry entry hmem).2]
      have hone := (List.singleton_sublist.mpr hpossible).flatMap (variantContribution system
        fragments (.perType naming? (some discriminator)) discriminator segment entry.selections)
      simpa [variantContribution, htext] using hone
    · have hcontributed : entries.flatMap (contribution system fragments
            (.perType naming? (some discriminator)) type) =
          entries.flatMap fun entry => (system.possibleTypes returnType).flatMap
            (variantContribution system fragments (.perType naming? (some discriminator))
              discriminator segment entry.selections) :=
        List.flatMap_congr fun entry hmem => (hentry entry hmem).2
      -- grouped by field on one side and by possible type on the other
      rw [hcontributed]
      refine (flatMap_comm_perm entries _ _).trans (List.Perm.of_eq ?_)
      refine List.flatMap_congr fun object hpossible => ?_
      cases htext : discriminator object with
      | none => simp [variantContribution, htext]
      | some text => simp [variantContribution, htext, List.map_flatMap]

end Entries

/-- Fields of one name on one type have one definition. -/
theorem definition_of_collectFields {system : TypeSystem} {fragments : Fragments} {type : Name}
    {active : List Name} {selections : SelectionSet} {fields : List AppliedField}
    (h : collectFields system fragments type active selections = .ok fields)
    {field other : AppliedField} (hfield : field ∈ fields) (hother : other ∈ fields)
    (hname : field.name = other.name) : field.definition = other.definition := by
  obtain ⟨_, -, -, hdefinition⟩ := exists_appliedAt h hfield
  obtain ⟨_, -, -, hdefinition'⟩ := exists_appliedAt h hother
  rw [hname, hdefinition'] at hdefinition
  exact (Option.some.inj hdefinition).symm

/--
Field-level and root-level computation agree, for a name that all fields in reach answer to exactly if it
is their own. Names hold no dot, so such a name is a response path. That path holds at least the selections of the
applied fields of that name, in order. If all type conditions let the type through, it holds nothing else, and is
found if there is such a field; then the paths of these selections are those that the fields contribute from the root.
-/
theorem Document.selectionsAt_agrees {document : Document} {operation? : Option Name}
    {root : SelectionSet} (hroot : document.rootSelections operation? = .ok root)
    {system : TypeSystem} {object : Name} {fields : List AppliedField}
    (hfields : appliedFields system document.fragments object root = .ok fields) {key : Name}
    (hopen : key.isReserved = false) (hdot : '.' ∉ key.toList)
    (hkey : EveryReached document.fragments (Selection.AnswersByName key) root) :
    (∀ entry ∈ fields, entry.name = key →
      ∃ merged, document.selectionsAt operation? key = .ok merged ∧
        (setsNamed fields key).flatten.Sublist merged) ∧
    (EveryReached document.fragments (Selection.LetsThrough system document.fragments object) root →
      (document.selectionsAt operation? key = .error (.fieldNotFound key) ↔
        ∀ field ∈ fields, field.name ≠ key) ∧
      ∀ entry ∈ fields, entry.name = key →
        document.selectionsAt operation? key = .ok (setsNamed fields key).flatten ∧
        ∀ (naming? : Option FieldNaming) (discriminator? : Option (Name → Option String))
          (paths : List Path) (segment : String), system.Bounds document.fragments →
          selectedPaths system document.fragments (.perType naming? discriminator?) root object =
            .ok paths →
          segmentOf system naming? object entry = some segment →
          (∀ set ∈ setsNamed fields key, set ≠ []) →
          paths = fields.flatMap
              (contribution system document.fragments (.perType naming? discriminator?) object) ∧
            PathsAgree system document.fragments naming? discriminator? segment entry.returnType
              (setsNamed fields key).flatten
              (contributionNamed system document.fragments (.perType naming? discriminator?) object
                fields key)) := by
  have hcollect := (appliedFields_eq_ok_iff.mp hfields).2
  have hpath := Document.selectionsAt_of_not_mem hroot hdot
  have hsets : ∀ entry ∈ fields, entry.name = key → entry.selections ∈ setsNamed fields key := by
    intro entry hentry hname
    exact List.mem_map.mpr ⟨entry, List.mem_filter.mpr ⟨hentry, by simp [hname]⟩, rfl⟩
  constructor
  · intro entry hentry hname
    have hsublist := setsNamed_sublist hopen hkey hcollect
    have hfound : occurrences document.fragments key [] root ≠ [] :=
      List.ne_nil_of_mem (hsublist.subset (hsets entry hentry hname))
    rw [if_neg hfound] at hpath
    exact ⟨_, hpath, hsublist.flatten⟩
  · intro hthrough
    rw [← setsNamed_eq hopen hkey hthrough hcollect] at hpath
    have hnone : setsNamed fields key = [] ↔ ∀ field ∈ fields, field.name ≠ key := by
      simp [setsNamed, List.filter_eq_nil_iff]
    constructor
    · rw [hpath, ← hnone]
      split_ifs with hempty <;> simp [hempty]
    · intro entry hentry hname
      have hfound : setsNamed fields key ≠ [] := List.ne_nil_of_mem (hsets entry hentry hname)
      rw [if_neg hfound] at hpath
      refine ⟨hpath, ?_⟩
      intro naming? discriminator? paths segment hbounds hpaths hsegment hbelow
      obtain ⟨others, hothers, hparts, hflat⟩ := (selectedPaths_eq_ok_iff hbounds).mp hpaths
      obtain rfl := Except.ok.inj (hfields.symm.trans hothers)
      have hnamed : ∀ field ∈ fields.filter (·.name == key),
          field ∈ fields ∧ field.name = entry.name ∧ field.definition = entry.definition := by
        intro field hfield
        obtain ⟨hmem, hfieldName⟩ := List.mem_filter.mp hfield
        have hsame : field.name = entry.name := by simpa [hname] using hfieldName
        exact ⟨hmem, hsame, definition_of_collectFields hcollect hmem hentry hsame⟩
      have hsiblings : Siblings system document.fragments naming? discriminator? object segment
          entry.returnType (fields.filter (·.name == key)) := by
        refine ⟨?_, ?_, ?_, ?_⟩
        · intro field hfield
          rw [AppliedField.returnType, (hnamed field hfield).2.2, AppliedField.returnType]
        · intro field hfield
          obtain ⟨-, hsame, hdefinition⟩ := hnamed field hfield
          rwa [segmentOf, hsame, hdefinition]
        · exact fun field hfield => hbelow _ (List.mem_map_of_mem hfield)
        · exact fun field hfield => hparts field (hnamed field hfield).1
      refine ⟨hflat, hsiblings.pathsAgree hbounds ?_⟩
      exact fun hnil => hfound (by rw [setsNamed, hnil, List.map_nil])

namespace Pets

/-- The pet twice, once in a fragment on its owner. -/
def twice : Document :=
  ⟨.anonymous ⟨.query, [], [], [leaf "id", .spread "Mine" [], .field none "pet" [] [] [.spread "Named" []]]⟩,
    ("Mine", ⟨"Owner", [], [.field none "pet" [] [] [leaf "name"]]⟩) :: fragments⟩

def twiceFields : List AppliedField :=
  [⟨"id", fieldOf "id" "ID", []⟩, ⟨"pet", fieldOf "pet" "Animal", [leaf "name"]⟩,
   ⟨"pet", fieldOf "pet" "Animal", [.spread "Named" []]⟩]

theorem twice_agrees :
    (∃ root, twice.rootSelections none = .ok root ∧
      appliedFields schema.typeSystem twice.fragments "Owner" root = .ok twiceFields ∧
      EveryReached twice.fragments (Selection.AnswersByName "pet") root ∧
      EveryReached twice.fragments (Selection.LetsThrough schema.typeSystem twice.fragments "Owner") root ∧
      selectedPaths schema.typeSystem twice.fragments (.perType none (some some)) root "Owner" =
        .ok ["id", "pet.Dog.name", "pet.Cat.name", "pet.Dog.name", "pet.Cat.name"]) ∧
    twice.selectionsAt none "pet" = .ok [leaf "name", .spread "Named" []] ∧
    PathsAgree schema.typeSystem twice.fragments none (some some) "pet" "Animal"
      [leaf "name", .spread "Named" []]
      (contributionNamed schema.typeSystem twice.fragments (.perType none (some some)) "Owner"
        twiceFields "pet") := by
  have hmine : twice.fragments.find? "Mine" =
      some ⟨"Owner", [], [.field none "pet" [] [] [leaf "name"]]⟩ := by cbv
  have hfields : appliedFields schema.typeSystem twice.fragments "Owner"
      [leaf "id", .spread "Mine" [], .field none "pet" [] [] [.spread "Named" []]] = .ok twiceFields := by
    cbv
  have hkey : EveryReached twice.fragments (Selection.AnswersByName "pet")
      [leaf "id", .spread "Mine" [], .field none "pet" [] [] [.spread "Named" []]] := by
    simp [leaf, EveryReached.field_iff, EveryReached.spread_iff, EveryReached.nil, hmine,
      Selection.AnswersByName, responseKey]
  have hthrough : EveryReached twice.fragments
      (Selection.LetsThrough schema.typeSystem twice.fragments "Owner")
      [leaf "id", .spread "Mine" [], .field none "pet" [] [] [.spread "Named" []]] := by
    simp [leaf, EveryReached.field_iff, EveryReached.spread_iff, EveryReached.nil, hmine,
      Selection.LetsThrough, TypeSystem.satisfies]
  have hpaths : selectedPaths schema.typeSystem twice.fragments (.perType none (some some))
      [leaf "id", .spread "Mine" [], .field none "pet" [] [] [.spread "Named" []]] "Owner" =
        .ok ["id", "pet.Dog.name", "pet.Cat.name", "pet.Dog.name", "pet.Cat.name"] := by cbv
  have hmerged : (setsNamed twiceFields "pet").flatten = [leaf "name", .spread "Named" []] := by cbv
  have hopen : Name.isReserved "pet" = false := by decide
  have hroot : twice.rootSelections none =
      .ok [leaf "id", .spread "Mine" [], .field none "pet" [] [] [.spread "Named" []]] := rfl
  have hagrees := (Document.selectionsAt_agrees hroot hfields hopen (by decide) hkey).2 hthrough
  obtain ⟨hfound, hcontributed⟩ := hagrees.2 ⟨"pet", fieldOf "pet" "Animal", [leaf "name"]⟩
    (by simp [twiceFields]) rfl
  have hbelow : ∀ set ∈ setsNamed twiceFields "pet", set ≠ [] := by simp [setsNamed, twiceFields]
  have hpet := (hcontributed none (some some) _ "pet" (.inr schema.listed) hpaths rfl hbelow).2
  rw [hmerged] at hfound hpet
  exact ⟨⟨_, hroot, hfields, hkey, hthrough, hpaths⟩, hfound, hpet⟩

end Pets

end QueryMask
