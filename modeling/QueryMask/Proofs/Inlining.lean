import QueryMask.Mask.Naming
import QueryMask.Proofs.Depth
import QueryMask.Proofs.Occurrences
import Mathlib

/-! Spreads replaced by inline fragments: fields, paths and response paths stay what they are. -/

namespace QueryMask

private theorem sizeOf_field_lt (alias? : Option Name) (name : Name) (arguments : List Argument)
    (directives : List Directive) (selections rest : SelectionSet) :
    sizeOf selections < sizeOf (Selection.field alias? name arguments directives selections :: rest) := by
  simp only [List.cons.sizeOf_spec, Selection.field.sizeOf_spec]
  omega

/--
The selections with an inline fragment for every spread, at every depth. A spread of an undefined or
an active fragment is left as it is.
-/
def inlinedWithin (fragments : Fragments) (active : List Name) : SelectionSet → SelectionSet
  | [] => []
  | .field alias? name arguments directives selections :: rest =>
    .field alias? name arguments directives (inlinedWithin fragments active selections) ::
      inlinedWithin fragments active rest
  | .spread name directives :: rest =>
    match _hfind : fragments.find? name with
    | none => .spread name directives :: inlinedWithin fragments active rest
    | some fragment =>
      if _hactive : active.contains name then
        .spread name directives :: inlinedWithin fragments active rest
      else
        .inline (some fragment.condition) directives
            (inlinedWithin fragments (name :: active) fragment.selections) ::
          inlinedWithin fragments active rest
  | .inline condition? directives selections :: rest =>
    .inline condition? directives (inlinedWithin fragments active selections) ::
      inlinedWithin fragments active rest
termination_by selections => (fragments.inactive active, sizeOf selections)
decreasing_by
  · exact .right _ (sizeOf_field_lt _ _ _ _ _ _)
  · exact .right _ (sizeOf_rest_lt _ _)
  · exact .right _ (sizeOf_rest_lt _ _)
  · exact .right _ (sizeOf_rest_lt _ _)
  · exact .left _ _ (Fragments.inactive_cons_lt _hfind (by simpa using _hactive))
  · exact .right _ (sizeOf_rest_lt _ _)
  · exact .right _ (sizeOf_inline_lt _ _ _ _)
  · exact .right _ (sizeOf_rest_lt _ _)

def inlined (fragments : Fragments) (selections : SelectionSet) : SelectionSet :=
  inlinedWithin fragments [] selections

section Equations

variable {fragments : Fragments} {active : List Name} {name : Name} {directives : List Directive}
  {selections rest : SelectionSet}

theorem inlinedWithin_spread_of_unknown (h : fragments.find? name = none) :
    inlinedWithin fragments active (.spread name directives :: rest) =
      .spread name directives :: inlinedWithin fragments active rest := by
  rw [inlinedWithin]
  split <;> simp_all

theorem inlinedWithin_spread_of_known {fragment : Fragment}
    (h : fragments.find? name = some fragment) :
    inlinedWithin fragments active (.spread name directives :: rest) =
      (if active.contains name then .spread name directives
        else .inline (some fragment.condition) directives
          (inlinedWithin fragments (name :: active) fragment.selections)) ::
        inlinedWithin fragments active rest := by
  rw [inlinedWithin]
  split
  · simp_all
  · rename_i found hfound
    obtain rfl : found = fragment := Option.some.inj (hfound.symm.trans h)
    split_ifs <;> rfl

/-- Active fragments out of reach make no difference. -/
theorem inlinedWithin_of_fresh (hacyclic : fragments.Acyclic) {active other : List Name}
    (hactive : fragments.Fresh active selections) (hother : fragments.Fresh other selections) :
    inlinedWithin fragments active selections = inlinedWithin fragments other selections := by
  induction selections using hacyclic.induction generalizing active other with
  | nil => rw [inlinedWithin, inlinedWithin]
  | field alias? name arguments directives selections rest ihbelow ihrest =>
    rw [inlinedWithin, inlinedWithin, ihrest hactive.rest hother.rest,
      ihbelow hactive.field hother.field]
  | unknown name directives rest hfind ihrest =>
    rw [inlinedWithin_spread_of_unknown hfind, inlinedWithin_spread_of_unknown hfind,
      ihrest hactive.rest hother.rest]
  | known name directives fragment rest hfind ihbody ihrest =>
    rw [inlinedWithin_spread_of_known hfind, inlinedWithin_spread_of_known hfind, hactive.not_active,
      hother.not_active, ihrest hactive.rest hother.rest,
      ihbody (hactive.spread hacyclic hfind) (hother.spread hacyclic hfind)]
  | inline condition? directives selections rest ihbody ihrest =>
    rw [inlinedWithin, inlinedWithin, ihrest hactive.rest hother.rest,
      ihbody hactive.inline hother.inline]

@[simp] theorem inlined_nil : inlined fragments [] = [] := by
  rw [inlined, inlinedWithin]

theorem inlined_field {alias? : Option Name} {arguments : List Argument} :
    inlined fragments (.field alias? name arguments directives selections :: rest) =
      .field alias? name arguments directives (inlined fragments selections) ::
        inlined fragments rest := by
  simp only [inlined, inlinedWithin]

theorem inlined_spread_of_unknown (h : fragments.find? name = none) :
    inlined fragments (.spread name directives :: rest) =
      .spread name directives :: inlined fragments rest :=
  inlinedWithin_spread_of_unknown h

/-- Without cycles the spread of a fragment becomes an inline fragment with its condition. -/
theorem inlined_spread_of_known (hacyclic : fragments.Acyclic) {fragment : Fragment}
    (h : fragments.find? name = some fragment) :
    inlined fragments (.spread name directives :: rest) =
      .inline (some fragment.condition) directives (inlined fragments fragment.selections) ::
        inlined fragments rest := by
  rw [inlined, inlinedWithin_spread_of_known h, if_neg (by simp),
    inlinedWithin_of_fresh hacyclic (Fragments.fresh_body hacyclic h) Fragments.fresh_nil]
  rfl

theorem inlined_inline {condition? : Option Name} :
    inlined fragments (.inline condition? directives selections :: rest) =
      .inline condition? directives (inlined fragments selections) :: inlined fragments rest := by
  simp only [inlined, inlinedWithin]

/-- Every selection stays or becomes one other selection. -/
theorem exists_inlined_cons (fragments : Fragments) (first : Selection) :
    ∃ inlinedFirst, ∀ rest, inlined fragments (first :: rest) = inlinedFirst :: inlined fragments rest := by
  cases first with
  | field alias? name arguments directives selections => exact ⟨_, fun _ => inlined_field⟩
  | inline condition? directives selections => exact ⟨_, fun _ => inlined_inline⟩
  | spread name directives =>
    cases hfind : fragments.find? name with
    | none => exact ⟨_, fun _ => inlined_spread_of_unknown hfind⟩
    | some fragment => exact ⟨_, fun _ => inlinedWithin_spread_of_known hfind⟩

theorem inlined_eq_nil_iff : inlined fragments selections = [] ↔ selections = [] := by
  cases selections with
  | nil => simp
  | cons first rest =>
    obtain ⟨inlinedFirst, h⟩ := exists_inlined_cons fragments first
    simp [h]

theorem inlined_append (front later : SelectionSet) :
    inlined fragments (front ++ later) = inlined fragments front ++ inlined fragments later := by
  induction front with
  | nil => simp
  | cons first rest ih =>
    obtain ⟨inlinedFirst, h⟩ := exists_inlined_cons fragments first
    rw [List.cons_append, h, h, ih, List.cons_append]

theorem inlined_flatten (sets : List SelectionSet) :
    inlined fragments sets.flatten = (sets.map (inlined fragments)).flatten := by
  induction sets with
  | nil => simp
  | cons set rest ih => rw [List.flatten_cons, inlined_append, ih, List.map_cons, List.flatten_cons]

end Equations

def AppliedField.inlined (fragments : Fragments) (field : AppliedField) : AppliedField :=
  { field with selections := QueryMask.inlined fragments field.selections }

section Fields

variable {system : TypeSystem} {fragments : Fragments} {type : Name}

private theorem append_map {ε α β : Type} (f : α → β) (first second : Except ε (List α)) :
    (first.map (List.map f) >>= fun front =>
        second.map (List.map f) >>= fun later => pure (front ++ later)) =
      (first >>= fun front => second >>= fun later => pure (front ++ later)).map (List.map f) := by
  cases first with
  | error fault => rfl
  | ok front =>
    cases second with
    | error fault => rfl
    | ok later => exact congrArg Except.ok List.map_append.symm

/-- Inlining only changes what stands below the collected fields. -/
theorem collectFields_inlined (hacyclic : fragments.Acyclic) (selections : SelectionSet) :
    collectFields system [] type [] (inlined fragments selections) =
      (collectFields system fragments type [] selections).map
        (List.map (AppliedField.inlined fragments)) := by
  induction selections using hacyclic.induction with
  | nil => rw [inlined_nil, collectFields_nil, collectFields_nil]; rfl
  | field alias? name arguments directives selections rest _ ihrest =>
    rw [inlined_field, collectFields_cons, collectFields_cons, ihrest, ← append_map]
    congr 1
    simp only [firstFields]
    split_ifs
    · rfl
    · cases system.field? type name <;> rfl
  | unknown name directives rest hfind ihrest =>
    rw [inlined_spread_of_unknown hfind, collectFields_spread_of_unknown hfind,
      collectFields_spread_of_unknown (by rfl)]
    rfl
  | known name directives fragment rest hfind ihbody ihrest =>
    rw [inlined_spread_of_known hacyclic hfind, collectFields_cons, collectFields_cons, ihrest,
      firstFields_spread_of_acyclic hacyclic hfind, ← append_map]
    congr 1
    simp only [firstFields, TypeSystem.admits, Option.all_some, ihbody]
    split_ifs <;> rfl
  | inline condition? directives selections rest ihbody ihrest =>
    rw [inlined_inline, collectFields_cons, collectFields_cons, ihrest, ← append_map]
    congr 1
    simp only [firstFields, ihbody]
    split_ifs <;> rfl

theorem appliedFields_inlined (hacyclic : fragments.Acyclic) (selections : SelectionSet) :
    appliedFields system [] type (inlined fragments selections) =
      (appliedFields system fragments type selections).map
        (List.map (AppliedField.inlined fragments)) := by
  unfold appliedFields
  rw [collectFields_inlined hacyclic]
  split_ifs <;> rfl

theorem fieldPaths_inlined {naming? : Option FieldNaming}
    {discriminator? : Option (Name → Option String)} {compute other : SelectionSet → Name → Run (List Path)}
    {parent : Name} {field : AppliedField}
    (h : field.selections ≠ [] → ∀ type,
      compute (inlined fragments field.selections) type = other field.selections type) :
    fieldPaths system (.perType naming? discriminator?) compute parent (field.inlined fragments) =
      fieldPaths system (.perType naming? discriminator?) other parent field := by
  have hempty : (inlined fragments field.selections).isEmpty = field.selections.isEmpty := by
    rw [Bool.eq_iff_iff, List.isEmpty_iff, List.isEmpty_iff, inlined_eq_nil_iff]
  by_cases hleaf : field.selections = []
  · simp [fieldPaths, AppliedField.inlined, hleaf, segment?, AppliedField.returnType]
  · have hbelow := funext (h hleaf)
    unfold fieldPaths
    simp only [subPaths_perType, AppliedField.inlined, hempty, hbelow]
    rfl

/-- Paths do not tell a spread from an inline fragment, and neither do the calls of the policy. -/
theorem pathsRun_inlined (hacyclic : fragments.Acyclic) (naming? : Option FieldNaming)
    (discriminator? : Option (Name → Option String)) (selections : SelectionSet) (type : Name) :
    pathsRun system [] (.perType naming? discriminator?) (inlined fragments selections) type =
      pathsRun system fragments (.perType naming? discriminator?) selections type := by
  induction selections using hacyclic.descent generalizing type with
  | step selections ih =>
    rw [Fragments.acyclic_nil.pathsRun_eq, hacyclic.pathsRun_eq, appliedFields_inlined hacyclic]
    cases happlied : appliedFields system fragments type selections with
    | error fault =>
      have hmap : (Except.error fault : Except MaskError (List AppliedField)).map
          (List.map (AppliedField.inlined fragments)) = .error fault := rfl
      rw [hmap, Run.ofExcept_error_bind, Run.ofExcept_error_bind]
    | ok fields =>
      have hmap : (Except.ok fields : Except MaskError (List AppliedField)).map
          (List.map (AppliedField.inlined fragments)) =
            .ok (fields.map (AppliedField.inlined fragments)) := rfl
      rw [hmap, Run.ofExcept_ok_bind, Run.ofExcept_ok_bind, Run.concatMap_map]
      refine Run.concatMap_congr fun field hfield => ?_
      have hfields := (appliedFields_eq_ok_iff.mp happlied).2
      obtain ⟨place, ⟨_, _, _, hreached⟩, -⟩ := exists_appliedAt hfields hfield
      exact fieldPaths_inlined fun hbelow => ih _ _ _ _ _ _ _ hreached hbelow

end Fields

section ResponsePaths

variable {fragments : Fragments}

theorem occurrences_inlined (hacyclic : fragments.Acyclic) (key : Name) (selections : SelectionSet) :
    occurrences [] key [] (inlined fragments selections) =
      (occurrences fragments key [] selections).map (inlined fragments) := by
  induction selections using hacyclic.induction with
  | nil => rw [inlined_nil, occurrences_nil, occurrences_nil]; rfl
  | field alias? name arguments directives selections rest _ ihrest =>
    rw [inlined_field, occurrences_field, occurrences_field, ihrest, List.map_append]
    split_ifs <;> rfl
  | unknown name directives rest hfind ihrest =>
    rw [inlined_spread_of_unknown hfind, occurrences_spread_of_unknown hfind,
      occurrences_spread_of_unknown (by rfl), ihrest]
  | known name directives fragment rest hfind ihbody ihrest =>
    rw [inlined_spread_of_known hacyclic hfind, occurrences_inline,
      occurrences_spread_of_acyclic hacyclic hfind, ihbody, ihrest, List.map_append]
  | inline condition? directives selections rest ihbody ihrest =>
    rw [inlined_inline, occurrences_inline, occurrences_inline, ihbody, ihrest, List.map_append]

theorem follow?_inlined (hacyclic : fragments.Acyclic) (keys : List Name) (current : List SelectionSet) :
    follow? [] keys (current.map (inlined fragments)) =
      (follow? fragments keys current).map (List.map (inlined fragments)) := by
  induction keys generalizing current with
  | nil => rfl
  | cons key keys ih =>
    have hfound : (current.map (inlined fragments)).flatMap (occurrences [] key []) =
        (current.flatMap (occurrences fragments key [])).map (inlined fragments) := by
      rw [List.flatMap_map, List.map_flatMap]
      simp only [occurrences_inlined hacyclic]
    simp only [follow?, hfound]
    cases hcurrent : current.flatMap (occurrences fragments key []) with
    | nil => rfl
    | cons first rest => exact ih (first :: rest)

end ResponsePaths

def Operation.inlined (fragments : Fragments) (operation : Operation) : Operation :=
  { operation with selections := QueryMask.inlined fragments operation.selections }

def Operations.inlined (fragments : Fragments) : Operations → Operations
  | anonymous operation => anonymous (operation.inlined fragments)
  | named operations => named (operations.map fun entry => (entry.1, entry.2.inlined fragments))

/-- The document with all spreads inlined, which needs no fragments. -/
def Document.inlined (document : Document) : Document :=
  ⟨document.operations.inlined document.fragments, []⟩

theorem Operations.select_inlined (fragments : Fragments) (operations : Operations)
    (operation? : Option Name) :
    (operations.inlined fragments).select operation? =
      (operations.select operation?).map (Operation.inlined fragments) := by
  cases operations with
  | anonymous operation => cases operation? <;> rfl
  | named entries =>
    cases operation? with
    | none =>
      match entries with
      | [] | [_] | _ :: _ :: _ => rfl
    | some name =>
      have hlookup : (entries.map fun entry => (entry.1, entry.2.inlined fragments)).lookup name =
          (entries.lookup name).map (Operation.inlined fragments) := by
        induction entries with
        | nil => rfl
        | cons entry rest ih =>
          obtain ⟨known, operation⟩ := entry
          rw [List.map_cons, List.lookup_cons, List.lookup_cons, ih]
          cases name == known <;> rfl
      simp only [Operations.inlined, Operations.select, Operations.withName, hlookup]
      cases entries.lookup name <;> rfl

theorem Document.rootSelections_inlined (document : Document) (operation? : Option Name) :
    document.inlined.rootSelections operation? =
      (document.rootSelections operation?).map (QueryMask.inlined document.fragments) := by
  simp only [rootSelections, Document.inlined, Operations.select_inlined]
  cases document.operations.select operation? <;> rfl

/-- The selections at a response path of the inlined document are the inlined ones of the document. -/
theorem Document.selectionsAt_inlined (document : Document) (hacyclic : document.fragments.Acyclic)
    (operation? : Option Name) (path : Path) :
    document.inlined.selectionsAt operation? path =
      (document.selectionsAt operation? path).map (QueryMask.inlined document.fragments) := by
  unfold selectionsAt
  rw [rootSelections_inlined]
  cases document.rootSelections operation? with
  | error fault => rfl
  | ok root =>
    have hfollow := follow?_inlined hacyclic path.segments [root]
    rw [List.map_singleton] at hfollow
    simp only [Except.map, bind, Except.bind, Document.inlined, hfollow]
    cases follow? document.fragments path.segments [root] with
    | none => rfl
    | some found => exact congrArg Except.ok (inlined_flatten found).symm

/--
Fragment inlining preserves meaning. Without any fragment, the inlined selections have the same run:
paths or error, and calls of the policy. The inlined document has the inlined selections at every
response path, or the same error.
-/
theorem meaning_of_inlined (document : Document) (hacyclic : document.fragments.Acyclic) :
    (∀ (system : TypeSystem) (naming? : Option FieldNaming)
      (discriminator? : Option (Name → Option String)) (selections : SelectionSet) (type : Name),
      pathsRun system [] (.perType naming? discriminator?) (inlined document.fragments selections) type =
        pathsRun system document.fragments (.perType naming? discriminator?) selections type) ∧
    ∀ (operation? : Option Name) (path : Path),
      document.inlined.selectionsAt operation? path =
        (document.selectionsAt operation? path).map (inlined document.fragments) :=
  ⟨fun _ => pathsRun_inlined hacyclic, document.selectionsAt_inlined hacyclic⟩

namespace Pets

/-- The selections of the pet without the spread. -/
def inlinedPet : SelectionSet :=
  [leaf "__typename", .inline (some "Animal") [] [leaf "name"], .inline (some "Dog") [] [leaf "breed"]]

/-- What is asked about an owner, and what is selected. -/
def ownerRun : Run (List Path) where
  calls := [.naming "Owner" "id", .naming "Owner" "pet", .expansion "Owner" "pet", .naming "Dog" "name",
    .naming "Dog" "breed", .naming "Cat" "name"]
  outcome := .ok ["id", "pet.Dog.name", "pet.Dog.breed", "pet.Cat.name"]

theorem meaning_of_inlined_owner :
    document.fragments.Acyclic ∧
      inlined document.fragments selections = [leaf "id", .field none "pet" [] [] inlinedPet] ∧
      pathsRun schema.typeSystem document.fragments (.perType (some (.byDirective "mask")) (some some)) selections
        "Owner" = ownerRun ∧
      pathsRun schema.typeSystem [] (.perType (some (.byDirective "mask")) (some some))
        (inlined document.fragments selections) "Owner" = ownerRun ∧
      document.selectionsAt none "pet" =
        .ok [leaf "__typename", .spread "Named" [], .inline (some "Dog") [] [leaf "breed"]] ∧
      document.inlined.selectionsAt none "pet" = .ok inlinedPet := by
  obtain ⟨hruns, hselections⟩ := meaning_of_inlined document acyclic
  have hrun : pathsRun schema.typeSystem document.fragments (.perType (some (.byDirective "mask")) (some some))
      selections "Owner" = ownerRun := by cbv
  have hpet : document.selectionsAt none "pet" =
      .ok [leaf "__typename", .spread "Named" [], .inline (some "Dog") [] [leaf "breed"]] := by cbv
  have hinlined : inlined document.fragments
      [leaf "__typename", .spread "Named" [], .inline (some "Dog") [] [leaf "breed"]] = inlinedPet := by cbv
  refine ⟨acyclic, by cbv, hrun, (hruns _ _ _ _ _).trans hrun, hpet, ?_⟩
  rw [hselections, hpet, ← hinlined]
  rfl

end Pets

end QueryMask
