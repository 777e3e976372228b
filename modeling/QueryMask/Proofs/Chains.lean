import QueryMask.Proofs.Collection
import QueryMask.Proofs.FieldPaths
import Mathlib

/-! Chains of field occurrences from a selection set to its leaves. The selected paths are those of
the complete chains, one for each chain, in document order. -/

namespace QueryMask

/-- The possible type below an abstract field: its index among the possible types, and its discriminator. -/
structure Variant where
  index : Nat
  discriminator : String

/-- A field occurrence of a chain: its place and segment, and the possible type taken below it. -/
structure Link where
  place : Place
  segment : String
  variant? : Option Variant

namespace Link

def index (link : Link) : Nat := link.variant?.elim 0 Variant.index

def words (link : Link) : List String := link.segment :: (link.variant?.map (·.discriminator)).toList

/-- The order of the document, and of the possible types for one occurrence. -/
def Before (earlier later : Link) : Prop :=
  earlier.place < later.place ∨ earlier.place = later.place ∧ earlier.index < later.index

end Link

def chainPath (chain : List Link) : Path := ".".intercalate (chain.flatMap Link.words)

/-- A field at which chains end: it has no selections, or returns no composite type. -/
def AppliedField.IsLeaf (system : TypeSystem) (field : AppliedField) : Prop :=
  field.selections = [] ∨ (system.kind? field.returnType).any TypeKind.isComposite = false

/--
Complete chains. Each link is a field that applies to the type its selection set is evaluated on and
is not left out. The last one is a leaf. Below the others the chain goes on with the returned object
type, or with a possible type of the returned abstract type that has a discriminator.
-/
def CompleteChain (system : TypeSystem) (fragments : Fragments) (naming? : Option FieldNaming)
    (discriminator? : Option (Name → Option String)) : List Link → SelectionSet → Name → Prop
  | [], _, _ => False
  | link :: rest, selections, type => ∃ field : AppliedField,
    AppliedAt system fragments type selections link.place field ∧
      segmentOf system naming? type field = some link.segment ∧
      match link.variant? with
      | none =>
        (field.IsLeaf system ∧ rest = []) ∨
          (field.selections ≠ [] ∧ system.kind? field.returnType = some .object ∧
            CompleteChain system fragments naming? discriminator? rest field.selections
              field.returnType)
      | some variant =>
        field.selections ≠ [] ∧ (system.kind? field.returnType).any TypeKind.isAbstract = true ∧
          ∃ discriminator object, discriminator? = some discriminator ∧
            (system.possibleTypes field.returnType)[variant.index]? = some object ∧
            discriminator object = some variant.discriminator ∧
            CompleteChain system fragments naming? discriminator? rest field.selections object

/-- Paths that are those of all chains with a property, each chain once and in document order. -/
def Enumerated (holds : List Link → Prop) (paths : List Path) : Prop :=
  ∃ chains : List (List Link), chains.Pairwise (List.Lex Link.Before) ∧
    (∀ chain, chain ∈ chains ↔ holds chain) ∧ paths = chains.map chainPath

namespace Enumerated

variable {holds other : List Link → Prop} {paths : List Path}

theorem congr (h : Enumerated holds paths) (hiff : ∀ chain, holds chain ↔ other chain) :
    Enumerated other paths := by
  obtain ⟨chains, hordered, hmem, hpaths⟩ := h
  exact ⟨chains, hordered, fun chain => (hmem chain).trans (hiff chain), hpaths⟩

theorem nil (hnone : ∀ chain, ¬ holds chain) : Enumerated holds [] :=
  ⟨[], .nil, by simpa using hnone, rfl⟩

theorem single {chain : List Link} (hone : ∀ other, holds other ↔ other = chain) :
    Enumerated holds [chainPath chain] :=
  ⟨[chain], by simp, by simp [hone], rfl⟩

/-- Chains behind a common first link. -/
theorem cons (h : Enumerated holds paths) (link : Link) (front : Path → Path)
    (hfront : ∀ rest, holds rest → chainPath (link :: rest) = front (chainPath rest)) :
    Enumerated (fun chain => ∃ rest, holds rest ∧ chain = link :: rest) (paths.map front) := by
  obtain ⟨chains, hordered, hmem, rfl⟩ := h
  refine ⟨chains.map (link :: ·), ?_, ?_, ?_⟩
  · exact List.pairwise_map.mpr (hordered.imp .cons)
  · intro chain
    simp only [List.mem_map, hmem, eq_comm]
  · rw [List.map_map, List.map_map]
    refine List.map_congr_left fun rest hrest => ?_
    exact (hfront rest ((hmem rest).mp hrest)).symm

/-- Enumerations in turn, if the chains of earlier ones come before those of later ones. -/
theorem flatMap {ι : Type} {items : List ι} {holds : ι → List Link → Prop} {paths : ι → List Path}
    {before : ι → ι → Prop} (hitems : items.Pairwise before)
    (heach : ∀ item ∈ items, Enumerated (holds item) (paths item))
    (hbefore : ∀ item later, before item later → ∀ chain other, holds item chain →
      holds later other → List.Lex Link.Before chain other) :
    Enumerated (fun chain => ∃ item ∈ items, holds item chain) (items.flatMap paths) := by
  have hexists : ∀ item ∈ items, ∃ chains : List (List Link),
      chains.Pairwise (List.Lex Link.Before) ∧ (∀ chain, chain ∈ chains ↔ holds item chain) ∧
        paths item = chains.map chainPath := heach
  choose! chains hordered hmem hpaths using hexists
  refine ⟨items.flatMap chains, ?_, ?_, ?_⟩
  · refine List.pairwise_flatMap.mpr ⟨hordered, hitems.imp_of_mem ?_⟩
    intro item later hitem hlater h chain hchain other hother
    exact hbefore item later h chain other ((hmem item hitem chain).mp hchain)
      ((hmem later hlater other).mp hother)
  · intro chain
    rw [List.mem_flatMap]
    exact exists_congr fun item => and_congr_right fun hitem => hmem item hitem chain
  · rw [List.map_flatMap]
    exact List.flatMap_congr hpaths

end Enumerated

section Words

variable {rest : List Link}

theorem words_ne_nil (h : rest ≠ []) : rest.flatMap Link.words ≠ [] := by
  obtain ⟨link, rest, rfl⟩ := List.exists_cons_of_ne_nil h
  simp [Link.words]

theorem chainPath_single (place : Place) (segment : String) : chainPath [⟨place, segment, none⟩] = segment := by
  simp [chainPath, Link.words]

theorem chainPath_object (place : Place) (segment : String) (h : rest ≠ []) :
    chainPath (⟨place, segment, none⟩ :: rest) = Path.join segment (chainPath rest) := by
  have hwords := words_ne_nil h
  simp [chainPath, Link.words, Path.join, String.intercalate_cons_of_ne_nil hwords]

theorem chainPath_variant (place : Place) (segment : String) (variant : Variant) (h : rest ≠ []) :
    chainPath (⟨place, segment, some variant⟩ :: rest) =
      Path.join segment (Path.join variant.discriminator (chainPath rest)) := by
  have hwords := words_ne_nil h
  simp [chainPath, Link.words, Path.join, String.intercalate_cons_of_ne_nil hwords, String.append_assoc]

end Words

section Chains

variable {system : TypeSystem} {fragments : Fragments} {naming? : Option FieldNaming}
  {discriminator? : Option (Name → Option String)} {selections : SelectionSet} {type : Name}

theorem CompleteChain.ne_nil {chain : List Link}
    (h : CompleteChain system fragments naming? discriminator? chain selections type) : chain ≠ [] := by
  cases chain with
  | nil => exact h.elim
  | cons link rest => simp

/-- The complete chains that begin with a given field occurrence. -/
theorem completeChain_at_iff {place : Place} {field : AppliedField} {chain : List Link}
    (happlied : AppliedAt system fragments type selections place field) :
    CompleteChain system fragments naming? discriminator? chain selections type ∧
        chain.head?.map Link.place = some place ↔
      ∃ segment, segmentOf system naming? type field = some segment ∧
        ((field.IsLeaf system ∧ chain = [⟨place, segment, none⟩]) ∨
          (field.selections ≠ [] ∧ system.kind? field.returnType = some .object ∧
            ∃ rest, CompleteChain system fragments naming? discriminator? rest field.selections
              field.returnType ∧ chain = ⟨place, segment, none⟩ :: rest) ∨
          (field.selections ≠ [] ∧ (system.kind? field.returnType).any TypeKind.isAbstract = true ∧
            ∃ discriminator index object text, discriminator? = some discriminator ∧
              (system.possibleTypes field.returnType)[index]? = some object ∧
              discriminator object = some text ∧
              ∃ rest, CompleteChain system fragments naming? discriminator? rest field.selections
                object ∧ chain = ⟨place, segment, some ⟨index, text⟩⟩ :: rest)) := by
  constructor
  · rintro ⟨hchain, hplace⟩
    cases chain with
    | nil => simp at hplace
    | cons link rest =>
      obtain ⟨other, hother, hsegment, hrest⟩ := hchain
      obtain ⟨place', segment, variant?⟩ := link
      obtain rfl : place' = place := by simpa using hplace
      obtain rfl := hother.unique happlied
      refine ⟨segment, hsegment, ?_⟩
      cases variant? with
      | none =>
        rcases hrest with ⟨hleaf, rfl⟩ | ⟨hne, hkind, hrest⟩
        · exact .inl ⟨hleaf, rfl⟩
        · exact .inr (.inl ⟨hne, hkind, rest, hrest, rfl⟩)
      | some variant =>
        obtain ⟨hne, hkind, discriminator, object, hdisc, hindex, htext, hrest⟩ := hrest
        exact .inr (.inr ⟨hne, hkind, discriminator, variant.index, object, variant.discriminator,
          hdisc, hindex, htext, rest, hrest, rfl⟩)
  · rintro ⟨segment, hsegment, ⟨hleaf, rfl⟩ | ⟨hne, hkind, rest, hrest, rfl⟩ |
      ⟨hne, hkind, discriminator, index, object, text, hdisc, hindex, htext, rest, hrest, rfl⟩⟩
    · exact ⟨⟨field, happlied, hsegment, .inl ⟨hleaf, rfl⟩⟩, rfl⟩
    · exact ⟨⟨field, happlied, hsegment, .inr ⟨hne, hkind, hrest⟩⟩, rfl⟩
    · exact ⟨⟨field, happlied, hsegment, hne, hkind, discriminator, object, hdisc, hindex, htext,
        hrest⟩, rfl⟩

/-- The chains that take the possible type `object`, the one of an index, below a field occurrence. -/
def VariantChain (system : TypeSystem) (fragments : Fragments) (naming? : Option FieldNaming)
    (discriminator : Name → Option String) (place : Place) (segment : String) (below : SelectionSet)
    (object : Name) (index : Nat) (chain : List Link) : Prop :=
  ∃ text, discriminator object = some text ∧
    ∃ rest, CompleteChain system fragments naming? (some discriminator) rest below object ∧
      chain = ⟨place, segment, some ⟨index, text⟩⟩ :: rest

theorem enumerated_variant (place : Place) (segment : String) {below : SelectionSet}
    {discriminator : Name → Option String} {compute : Name → Run (List Path)} {object : Name}
    (index : Nat)
    (hcompute : ∀ paths, (compute object).outcome = .ok paths → Enumerated
      (CompleteChain system fragments naming? (some discriminator) · below object) paths)
    (h : (variantPaths discriminator compute object).outcome =
      .ok (variantPaths discriminator compute object).results) :
    Enumerated (VariantChain system fragments naming? discriminator place segment below object index)
      ((variantPaths discriminator compute object).results.map (Path.join segment)) := by
  unfold variantPaths at h ⊢
  cases htext : discriminator object with
  | none => exact .nil (by simp [VariantChain, htext])
  | some text =>
    simp only [htext] at h ⊢
    obtain ⟨found, hfound, hresults⟩ := Run.outcome_bind_pure_eq_ok_iff.mp h
    rw [hresults, List.map_map]
    have hcons := (hcompute found hfound).cons ⟨place, segment, some ⟨index, text⟩⟩
      (fun path => Path.join segment (Path.join text path))
      fun rest hrest => chainPath_variant place segment ⟨index, text⟩ hrest.ne_nil
    refine hcons.congr fun chain => ?_
    simp [VariantChain, htext]

theorem pairwise_zipIdx (objects : List Name) :
    objects.zipIdx.Pairwise fun item later => item.2 < later.2 := by
  have hindices : (objects.zipIdx.map (·.2)).Pairwise (· < ·) := by
    rw [List.zipIdx_map_snd]
    exact List.pairwise_lt_range'
  exact List.pairwise_map.mp hindices

/-- Below an abstract field the possible types are taken in order. -/
theorem enumerated_variants (place : Place) (segment : String) {below : SelectionSet}
    {discriminator : Name → Option String} {compute : Name → Run (List Path)} {objects : List Name}
    {paths : List Path}
    (hcompute : ∀ object paths, (compute object).outcome = .ok paths → Enumerated
      (CompleteChain system fragments naming? (some discriminator) · below object) paths)
    (h : (Run.concatMap (variantPaths discriminator compute) objects).outcome = .ok paths) :
    Enumerated (fun chain => ∃ index object, objects[index]? = some object ∧
      VariantChain system fragments naming? discriminator place segment below object index chain)
      (paths.map (Path.join segment)) := by
  obtain ⟨hparts, rfl⟩ := Run.outcome_concatMap_eq_ok_iff.mp h
  have hpart : ∀ item ∈ objects.zipIdx, Enumerated (VariantChain system fragments naming?
      discriminator place segment below item.1 item.2)
      ((variantPaths discriminator compute item.1).results.map (Path.join segment)) := by
    rintro ⟨object, index⟩ hitem
    exact enumerated_variant place segment index (hcompute object)
      (hparts object (List.fst_mem_of_mem_zipIdx hitem))
  have hbefore : ∀ item later : Name × Nat, item.2 < later.2 → ∀ chain other,
      VariantChain system fragments naming? discriminator place segment below item.1 item.2 chain →
      VariantChain system fragments naming? discriminator place segment below later.1 later.2 other →
      List.Lex Link.Before chain other := by
    rintro item later hlt chain other ⟨_, -, _, -, rfl⟩ ⟨_, -, _, -, rfl⟩
    exact .rel (.inr ⟨rfl, hlt⟩)
  have hpaths : objects.zipIdx.flatMap (fun item =>
        (variantPaths discriminator compute item.1).results.map (Path.join segment)) =
      (objects.flatMap fun object => (variantPaths discriminator compute object).results).map
        (Path.join segment) := by
    conv_rhs => rw [← List.zipIdx_map_fst 0 objects]
    rw [List.flatMap_map, List.map_flatMap]
  rw [← hpaths]
  refine (Enumerated.flatMap (pairwise_zipIdx objects) hpart hbefore).congr fun chain => ?_
  simp only [Prod.exists, List.mk_mem_zipIdx_iff_getElem?]
  exact exists_comm

/-- The paths of a field are those of the chains that begin with it. -/
theorem enumerated_fieldPaths {compute : SelectionSet → Name → Run (List Path)} {place : Place}
    {field : AppliedField} {paths : List Path}
    (hcompute : ∀ type paths, (compute field.selections type).outcome = .ok paths → Enumerated
      (CompleteChain system fragments naming? discriminator? · field.selections type) paths)
    (happlied : AppliedAt system fragments type selections place field)
    (h : (fieldPaths system (.perType naming? discriminator?) compute type field).outcome =
      .ok paths) :
    Enumerated (fun chain => CompleteChain system fragments naming? discriminator? chain selections
      type ∧ chain.head?.map Link.place = some place) paths := by
  simp only [completeChain_at_iff happlied]
  rcases outcome_fieldPaths_eq_ok_iff.mp h with ⟨hout, rfl⟩ | ⟨segment, kind, hsegment, hkind, hcase⟩
  · refine .nil ?_
    rintro chain ⟨segment, hsegment, -⟩
    exact absurd (hout.symm.trans hsegment) (by simp)
  have hsegment' : segmentOf system naming? type field = some segment := hsegment
  simp only [hsegment', Option.some.injEq, exists_eq_left', hkind, Option.any_some]
  rcases hcase with ⟨hleaf, rfl⟩ | ⟨hcomposite, hne, below, hbelow, rfl⟩
  · have hisLeaf : field.IsLeaf system := by
      rcases hleaf with hkindLeaf | hnil
      · exact .inr (by rw [hkind, Option.any_some, hkindLeaf])
      · exact .inl hnil
    have hnone : field.selections ≠ [] → kind ≠ .object ∧ kind.isAbstract = false := by
      intro hne
      have hkindLeaf := hleaf.resolve_right hne
      cases kind <;> simp_all [TypeKind.isComposite, TypeKind.isAbstract]
    have hone : Enumerated (· = [⟨place, segment, none⟩]) [chainPath [⟨place, segment, none⟩]] :=
      .single fun _ => Iff.rfl
    rw [chainPath_single] at hone
    refine hone.congr fun chain => ⟨fun hchain => .inl ⟨hisLeaf, hchain⟩, ?_⟩
    rintro (⟨-, hchain⟩ | ⟨hne, hobject, -⟩ | ⟨hne, habstract, -⟩)
    · exact hchain
    · exact absurd hobject (hnone hne).1
    · exact absurd habstract (by simp [(hnone hne).2])
  · have hnotLeaf : ¬ field.IsLeaf system := by
      simp [AppliedField.IsLeaf, hne, hkind, hcomposite]
    rw [subPaths_perType] at hbelow
    split_ifs at hbelow with hobject
    · subst hobject
      have hcons := (hcompute _ _ hbelow).cons ⟨place, segment, none⟩ (Path.join segment)
        fun rest hrest => chainPath_object place segment hrest.ne_nil
      refine hcons.congr fun chain => ?_
      simp [hnotLeaf, hne, TypeKind.isAbstract]
    · have habstract := TypeKind.isAbstract_of_composite hcomposite hobject
      cases hdisc : discriminator? with
      | none =>
        obtain rfl : [] = below := by simpa [hdisc] using hbelow
        exact .nil (by simp [hnotLeaf, hobject])
      | some discriminator =>
        subst hdisc
        rw [Option.elim_some, Run.bind_eq_of_ok _ rfl] at hbelow
        refine (enumerated_variants place segment (hcompute · · ·) hbelow).congr fun chain => ?_
        simp [hnotLeaf, hobject, hne, habstract, VariantChain]

theorem enumerated_pathsWithin {depth : Nat} {paths : List Path}
    (h : (pathsWithin system fragments (.perType naming? discriminator?) depth selections
      type).outcome = .ok paths) :
    Enumerated (CompleteChain system fragments naming? discriminator? · selections type) paths := by
  induction depth generalizing selections type paths with
  | zero => simp [pathsWithin] at h
  | succ depth ih =>
    rw [pathsWithin, Run.outcome_bind, bind_eq_ok_iff] at h
    obtain ⟨fields, hfields, h⟩ := h
    obtain ⟨placed, hordered, hmem, rfl⟩ :=
      placed_collectFields (appliedFields_eq_ok_iff.mp hfields).2
    obtain ⟨hparts, rfl⟩ := Run.outcome_concatMap_eq_ok_iff.mp h
    rw [List.flatMap_map]
    have hpart : ∀ entry ∈ placed, Enumerated (fun chain =>
        CompleteChain system fragments naming? discriminator? chain selections type ∧
          chain.head?.map Link.place = some entry.1)
        (fieldPaths system (.perType naming? discriminator?)
          (pathsWithin system fragments (.perType naming? discriminator?) depth) type entry.2).results :=
      fun entry hentry => enumerated_fieldPaths (fun _ _ hbelow => ih hbelow) ((hmem entry).mp hentry)
        (hparts entry.2 (List.mem_map_of_mem hentry))
    refine (Enumerated.flatMap hordered hpart ?_).congr fun chain => ?_
    · rintro ⟨place, field⟩ ⟨place', field'⟩ hlt chain other ⟨-, hchain⟩ ⟨-, hother⟩
      cases chain with
      | nil => simp at hchain
      | cons link rest =>
        cases other with
        | nil => simp at hother
        | cons link' rest' =>
          simp only [List.head?_cons, Option.map_some, Option.some.injEq] at hchain hother
          exact .rel (.inl (hchain ▸ hother ▸ hlt))
    · constructor
      · rintro ⟨_, _, hchain, _⟩
        exact hchain
      · intro hchain
        cases chain with
        | nil => exact hchain.elim
        | cons link rest =>
          obtain ⟨field, happlied, -⟩ := id hchain
          exact ⟨(link.place, field), (hmem _).mpr happlied, hchain, rfl⟩

end Chains

instance : Std.Asymm Link.Before where
  asymm earlier later h h' := by
    unfold Link.Before at h h'
    rcases h with h | ⟨hplace, h⟩ <;> rcases h' with h' | ⟨hplace', h'⟩
    · exact lt_asymm h h'
    · exact lt_irrefl _ (hplace' ▸ h)
    · exact lt_irrefl _ (hplace ▸ h')
    · omega

/--
A successful run selects exactly the paths of the complete chains: one path for each chain, in
document order. Nothing is assumed about cycles, since a run that meets one does not succeed.
-/
theorem selectedPaths_eq_map_chainPath (system : TypeSystem) (fragments : Fragments)
    (naming? : Option FieldNaming) (discriminator? : Option (Name → Option String))
    (selections : SelectionSet) (type : Name) (paths : List Path)
    (h : selectedPaths system fragments (.perType naming? discriminator?) selections type =
      .ok paths) :
    ∃ chains : List (List Link), chains.Pairwise (List.Lex Link.Before) ∧ chains.Nodup ∧
      (∀ chain, chain ∈ chains ↔
        CompleteChain system fragments naming? discriminator? chain selections type) ∧
      paths = chains.map chainPath := by
  obtain ⟨chains, hordered, hmem, hpaths⟩ := enumerated_pathsWithin h
  refine ⟨chains, hordered, hordered.imp ?_, hmem, hpaths⟩
  rintro chain other hlt rfl
  exact asymm hlt hlt

theorem Pets.chains_of_owner :
    selectedPaths Pets.schema.typeSystem Pets.fragments (.perType none (some some)) Pets.selections
        "Owner" = .ok ["id", "pet.Dog.name", "pet.Dog.breed", "pet.Cat.name"] ∧
      ∃ chains : List (List Link), chains.Pairwise (List.Lex Link.Before) ∧ chains.Nodup ∧
        (∀ chain, chain ∈ chains ↔ CompleteChain Pets.schema.typeSystem Pets.fragments none
          (some some) chain Pets.selections "Owner") ∧
        ["id", "pet.Dog.name", "pet.Dog.breed", "pet.Cat.name"] = chains.map chainPath := by
  have hpaths : selectedPaths Pets.schema.typeSystem Pets.fragments (.perType none (some some))
      Pets.selections "Owner" = .ok ["id", "pet.Dog.name", "pet.Dog.breed", "pet.Cat.name"] := by cbv
  exact ⟨hpaths, selectedPaths_eq_map_chainPath _ _ _ _ _ _ _ hpaths⟩

end QueryMask
