import QueryMask.Proofs.DepthBound
import Mathlib

/-! Selecting less: a document without some of its selections selects a subsequence of the paths. -/

namespace QueryMask

/--
The second selections are the first ones without some of them, at any depth. A field that stays keeps at least one
of its selections if it has any; without selections it would be a leaf, and its own path would be new.
-/
inductive Thinned : SelectionSet → SelectionSet → Prop where
  | nil : Thinned [] []
  | drop {selection rest kept} (hrest : Thinned rest kept) : Thinned (selection :: rest) kept
  | field {alias? name arguments directives selections below rest kept} (hbelow : Thinned selections below)
      (hsome : selections ≠ [] → below ≠ []) (hrest : Thinned rest kept) :
      Thinned (.field alias? name arguments directives selections :: rest)
        (.field alias? name arguments directives below :: kept)
  | spread {name directives rest kept} (hrest : Thinned rest kept) :
      Thinned (.spread name directives :: rest) (.spread name directives :: kept)
  | inline {condition? directives selections body rest kept} (hbody : Thinned selections body)
      (hrest : Thinned rest kept) :
      Thinned (.inline condition? directives selections :: rest) (.inline condition? directives body :: kept)

/-- The applied field is another one with fewer selections, and a leaf only if the other one is. -/
structure AppliedField.Thins (kept field : AppliedField) : Prop where
  name : kept.name = field.name
  definition : kept.definition = field.definition
  selections : Thinned field.selections kept.selections
  leaf : kept.selections = [] ↔ field.selections = []

theorem Thinned.eq_nil {kept : SelectionSet} (h : Thinned [] kept) : kept = [] := by
  cases h
  rfl

theorem Thinned.eq_nil_iff {selections kept : SelectionSet} (h : Thinned selections kept)
    (hsome : selections ≠ [] → kept ≠ []) : kept = [] ↔ selections = [] := by
  constructor
  · intro hkept
    by_contra hselections
    exact hsome hselections hkept
  · rintro rfl
    exact h.eq_nil

theorem Thinned.spreads_sublist {selections kept : SelectionSet} (h : Thinned selections kept) :
    (SelectionSet.spreads kept).Sublist (SelectionSet.spreads selections) := by
  induction h with
  | nil => exact .refl []
  | drop _ ih => exact ih.trans (List.sublist_append_right _ _)
  | field _ _ _ ihbelow ihrest => exact ihbelow.append ihrest
  | spread _ ih => exact (List.Sublist.refl _).append ih
  | inline _ _ ihbody ihrest => exact ihbody.append ihrest

theorem Fragments.Acyclic.thinned {fragments others : Fragments} (hacyclic : fragments.Acyclic)
    (hfragments : fragments.Alike Thinned others) : others.Acyclic := by
  have hspreads : others.Spreads ≤ fragments.Spreads := by
    rintro outer inner ⟨other, hother, hspread⟩
    obtain ⟨fragment, hfind, hthinned⟩ := hfragments.exists_of_find?_other hother
    exact ⟨fragment, hfind, hthinned.spreads_sublist.subset hspread⟩
  exact fun name hcycle => hacyclic name (Relation.TransGen.mono hspreads name name hcycle)

section Collected

variable {system : TypeSystem} {fragments others : Fragments} {type : Name} {active : List Name}

private theorem sublistForall₂_append {kept front keptLater later : List AppliedField}
    (hfront : List.SublistForall₂ AppliedField.Thins kept front)
    (hlater : List.SublistForall₂ AppliedField.Thins keptLater later) :
    List.SublistForall₂ AppliedField.Thins (kept ++ keptLater) (front ++ later) := by
  obtain ⟨between, hrelated, hsublist⟩ := List.sublistForall₂_iff.mp hfront
  obtain ⟨betweenLater, hrelatedLater, hsublistLater⟩ := List.sublistForall₂_iff.mp hlater
  have happend := List.rel_append hrelated hrelatedLater
  exact List.sublistForall₂_iff.mpr ⟨_, happend, hsublist.append hsublistLater⟩

/-- What the second selections contribute is, field by field, part of what the first ones do. -/
def Contributes (system : TypeSystem) (others : Fragments) (type : Name) (active : List Name)
    (kept : SelectionSet) (fields : List AppliedField) : Prop :=
  ∃ found, collectFields system others type active kept = .ok found ∧
    List.SublistForall₂ AppliedField.Thins found fields

theorem Contributes.drop {kept : SelectionSet} {front later : List AppliedField}
    (h : Contributes system others type active kept later) :
    Contributes system others type active kept (front ++ later) := by
  obtain ⟨found, hfound, hpart⟩ := h
  exact ⟨found, hfound, sublistForall₂_append .nil hpart⟩

theorem Contributes.cons {selection : Selection} {kept : SelectionSet} {found front later : List AppliedField}
    (hfirst : firstFields system others type active selection = .ok found)
    (hfound : List.SublistForall₂ AppliedField.Thins found front)
    (h : Contributes system others type active kept later) :
    Contributes system others type active (selection :: kept) (front ++ later) := by
  obtain ⟨foundLater, hfoundLater, hpart⟩ := h
  refine ⟨found ++ foundLater, ?_, sublistForall₂_append hfound hpart⟩
  exact collectFields_cons_eq_ok_iff.mpr ⟨found, foundLater, hfirst, hfoundLater, rfl⟩

/-- By induction on the traversal of the whole document, which enters every fragment that the other one enters. -/
theorem Thinned.contributes (hfragments : fragments.Alike Thinned others) {selections kept : SelectionSet}
    {fields : List AppliedField} (h : Thinned selections kept)
    (hfields : collectFields system fragments type active selections = .ok fields) :
    Contributes system others type active kept fields := by
  induction active, selections using fragments.traversal generalizing kept fields with
  | nil active =>
    rw [h.eq_nil]
    exact ⟨[], collectFields_nil, .nil⟩
  | field active alias? name arguments directives selections rest ihrest =>
    obtain ⟨front, later, hfront, hlater, rfl⟩ := collectFields_cons_eq_ok_iff.mp hfields
    cases h with
    | drop hrest => exact (ihrest hrest hlater).drop
    | @field _ _ _ _ _ below _ _ hbelow hsome hrest =>
      have hleaf := hbelow.eq_nil_iff hsome
      rcases firstFields_field_eq_ok_iff.mp hfront with ⟨hreserved, rfl⟩ | ⟨hopen, definition, hdefinition, rfl⟩
      · refine .cons (firstFields_field_eq_ok_iff.mpr ?_) .nil (ihrest hrest hlater)
        exact .inl ⟨hreserved, rfl⟩
      · have hfield : AppliedField.Thins ⟨name, definition, below⟩ ⟨name, definition, selections⟩ :=
          ⟨rfl, rfl, hbelow, hleaf⟩
        refine .cons (firstFields_field_eq_ok_iff.mpr ?_) (.cons hfield .nil) (ihrest hrest hlater)
        exact .inr ⟨hopen, definition, hdefinition, rfl⟩
  | spread active name directives rest ihbody ihrest =>
    obtain ⟨front, later, hfront, hlater, rfl⟩ := collectFields_cons_eq_ok_iff.mp hfields
    cases h with
    | drop hrest => exact (ihrest hrest hlater).drop
    | spread hrest =>
      obtain ⟨fragment, hfind, hcase⟩ := firstFields_spread_eq_ok_iff.mp hfront
      obtain ⟨other, hother, hcondition, hthinned⟩ := hfragments.exists_of_find? hfind
      rw [hcondition] at hcase
      rcases hcase with ⟨hsatisfies, rfl⟩ | ⟨hsatisfies, hactive, hbody⟩
      · refine .cons (firstFields_spread_eq_ok_iff.mpr ?_) .nil (ihrest hrest hlater)
        exact ⟨other, hother, .inl ⟨hsatisfies, rfl⟩⟩
      · obtain ⟨found, hfound, hpart⟩ := ihbody fragment hfind hactive hthinned hbody
        refine .cons (firstFields_spread_eq_ok_iff.mpr ?_) hpart (ihrest hrest hlater)
        exact ⟨other, hother, .inr ⟨hsatisfies, hactive, hfound⟩⟩
  | inline active condition? directives selections rest ihbody ihrest =>
    obtain ⟨front, later, hfront, hlater, rfl⟩ := collectFields_cons_eq_ok_iff.mp hfields
    cases h with
    | drop hrest => exact (ihrest hrest hlater).drop
    | inline hbelow hrest =>
      rcases firstFields_inline_eq_ok_iff.mp hfront with ⟨hadmits, rfl⟩ | ⟨hadmits, hbody⟩
      · refine .cons (firstFields_inline_eq_ok_iff.mpr ?_) .nil (ihrest hrest hlater)
        exact .inl ⟨hadmits, rfl⟩
      · obtain ⟨found, hfound, hpart⟩ := ihbody hbelow hbody
        refine .cons (firstFields_inline_eq_ok_iff.mpr ?_) hpart (ihrest hrest hlater)
        exact .inr ⟨hadmits, hfound⟩

end Collected

section Paths

variable {system : TypeSystem} {fragments others : Fragments} {naming? : Option FieldNaming}
  {discriminator? : Option (Name → Option String)} {type : Name}

theorem congruent_sublist : Run.Congruent fun paths found : List Path => found.Sublist paths where
  refl paths := List.Sublist.refl paths
  map f h := h.map f
  append h hlater := h.append hlater

/-- Runs over fewer fields, each with fewer paths. -/
theorem concatMap_yields_sublist {f g : AppliedField → Run (List Path)} {kept fields : List AppliedField}
    (hfields : List.SublistForall₂ AppliedField.Thins kept fields)
    (h : ∀ found field, AppliedField.Thins found field →
      (f field).Yields (fun paths found => found.Sublist paths) (g found)) :
    (Run.concatMap f fields).Yields (fun paths found => found.Sublist paths) (Run.concatMap g kept) := by
  induction hfields with
  | nil => exact fun paths _ => ⟨[], rfl, List.nil_sublist paths⟩
  | cons hfield _ ih =>
    intro paths hpaths
    obtain ⟨first, later, hfirst, hlater, rfl⟩ := Run.outcome_concatMap_cons_eq_ok_iff.mp hpaths
    obtain ⟨found, hfound, hsublist⟩ := h _ _ hfield first hfirst
    obtain ⟨foundLater, hfoundLater, hsublistLater⟩ := ih later hlater
    refine ⟨found ++ foundLater, ?_, hsublist.append hsublistLater⟩
    exact Run.outcome_concatMap_cons_eq_ok_iff.mpr ⟨found, foundLater, hfound, hfoundLater, rfl⟩
  | cons_right _ ih =>
    intro paths hpaths
    obtain ⟨first, later, -, hlater, rfl⟩ := Run.outcome_concatMap_cons_eq_ok_iff.mp hpaths
    obtain ⟨found, hfound, hsublist⟩ := ih later hlater
    exact ⟨found, hfound, hsublist.trans (List.sublist_append_right first later)⟩

theorem AppliedField.Thins.fieldPaths {kept field : AppliedField} (h : kept.Thins field)
    {compute computeKept : SelectionSet → Name → Run (List Path)}
    (hbelow : ∀ below, (compute field.selections below).Yields (fun paths found => found.Sublist paths)
      (computeKept kept.selections below)) :
    (fieldPaths system (.perType naming? discriminator?) compute type field).Yields
      (fun paths found => found.Sublist paths)
      (fieldPaths system (.perType naming? discriminator?) computeKept type kept) := by
  have hreturn : field.returnType = kept.returnType := by
    unfold AppliedField.returnType
    rw [h.definition]
  have hsegment : segmentOf system naming? type kept = segmentOf system naming? type field := by
    unfold segmentOf
    rw [h.name, h.definition]
  refine fieldPaths_yields congruent_sublist hsegment ?_ h.leaf fun kind _ => ?_
  · intro kind hkind
    rwa [← hreturn]
  · refine subPaths_yields hreturn (hbelow _) ?_
    unfold expandedPaths
    cases discriminator? with
    | none => exact congruent_sublist.yields_refl _
    | some discriminator =>
      exact Run.yields_concatMap congruent_sublist
        fun below _ => variantPaths_yields congruent_sublist (hbelow below)

/-- What holds one level down holds of the level: fewer fields, and below each of them fewer paths. -/
theorem Thinned.pathsWithin (hfragments : fragments.Alike Thinned others) {selections kept : SelectionSet}
    (h : Thinned selections kept) (depth : Nat) (type : Name) :
    (pathsWithin system fragments (.perType naming? discriminator?) depth selections type).Yields
      (fun paths found => found.Sublist paths)
      (pathsWithin system others (.perType naming? discriminator?) depth kept type) := by
  induction depth generalizing selections kept type with
  | zero => exact fun paths hpaths => by simp [QueryMask.pathsWithin] at hpaths
  | succ depth ih =>
    intro paths hpaths
    rw [pathsWithin_succ, Run.outcome_bind, bind_eq_ok_iff] at hpaths
    obtain ⟨fields, hfields, hpaths⟩ := hpaths
    obtain ⟨hkind, hcollect⟩ := appliedFields_eq_ok_iff.mp hfields
    obtain ⟨found, hfound, hpart⟩ := h.contributes hfragments hcollect
    have happlied := appliedFields_eq_ok_iff.mpr ⟨hkind, hfound⟩
    rw [pathsWithin_succ, happlied, Run.ofExcept_ok_bind]
    refine concatMap_yields_sublist hpart ?_ paths hpaths
    exact fun _ _ hfield => hfield.fieldPaths fun below => ih hfield.selections below

/--
Selecting less never selects more paths. A document without some of its selections, in which no field has lost all
of its selections, succeeds if the whole one does, and its paths are a subsequence of those of the whole one.
-/
theorem selectedPaths_thinned (system : TypeSystem) (naming? : Option FieldNaming)
    (discriminator? : Option (Name → Option String)) {fragments others : Fragments}
    {selections kept : SelectionSet} (type : Name) {paths : List Path} (hbounds : system.Bounds fragments)
    (hfragments : fragments.Alike Thinned others) (hselections : Thinned selections kept)
    (h : selectedPaths system fragments (.perType naming? discriminator?) selections type = .ok paths) :
    ∃ found, selectedPaths system others (.perType naming? discriminator?) kept type = .ok found ∧
      found.Sublist paths := by
  have hothers : system.Bounds others := hbounds.imp_left (·.thinned hfragments)
  obtain ⟨found, hfound, hsublist⟩ := hselections.pathsWithin hfragments _ type paths h
  exact ⟨found, hothers.selectedPaths_eq hfound, hsublist⟩

end Paths

namespace Pets

/-! Here only the breed of dogs is selected, and the fragment for names is empty. -/

def fewerSelections : SelectionSet :=
  [.field none "pet" [] [] [.spread "Named" [], .inline (some "Dog") [] [leaf "breed"]]]

def fewerFragments : Fragments := [("Named", ⟨"Animal", [], []⟩)]

theorem paths_of_thinned :
    fragments.Alike Thinned fewerFragments ∧ Thinned selections fewerSelections ∧
      selectedPaths schema.typeSystem fragments (.perType none (some some)) selections "Owner" =
        .ok ["id", "pet.Dog.name", "pet.Dog.breed", "pet.Cat.name"] ∧
      ∃ found, selectedPaths schema.typeSystem fewerFragments (.perType none (some some)) fewerSelections
          "Owner" = .ok found ∧
        found.Sublist ["id", "pet.Dog.name", "pet.Dog.breed", "pet.Cat.name"] := by
  have hfragments : fragments.Alike Thinned fewerFragments :=
    Fragments.alike_nil.cons rfl (.drop .nil)
  have hleaf : Thinned [leaf "breed"] [leaf "breed"] := .field .nil id .nil
  have hbelow : Thinned [leaf "__typename", .spread "Named" [], .inline (some "Dog") [] [leaf "breed"]]
      [.spread "Named" [], .inline (some "Dog") [] [leaf "breed"]] := .drop (.spread (.inline hleaf .nil))
  have hselections : Thinned selections fewerSelections := .drop (.field hbelow (by simp) .nil)
  have hpaths : selectedPaths schema.typeSystem fragments (.perType none (some some)) selections "Owner" =
      .ok ["id", "pet.Dog.name", "pet.Dog.breed", "pet.Cat.name"] := by cbv
  exact ⟨hfragments, hselections, hpaths,
    selectedPaths_thinned schema.typeSystem none (some some) "Owner" (.inl acyclic) hfragments hselections hpaths⟩

/-- A field that loses all of its selections adds a path. -/
example : selectedPaths schema.typeSystem fragments (.perType none (some some)) [leaf "pet"] "Owner" =
    .ok ["pet"] := by cbv

end Pets

end QueryMask
