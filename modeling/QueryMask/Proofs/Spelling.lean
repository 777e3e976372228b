import QueryMask.Mask.Naming
import QueryMask.Proofs.Chains
import QueryMask.Proofs.DeclaredTypes
import QueryMask.Proofs.DepthBound
import QueryMask.Proofs.Pruning
import Mathlib

/-! What paths do not depend on: aliases, arguments, directives and reserved fields in a document, and in a schema all
of a field but its name, its named type and the directive that names it. -/

namespace QueryMask

/--
Selections with the same fields, spreads and conditions, up to aliases, arguments and directives, and up to reserved
fields with any selections below them. Fields without selections correspond to fields without selections.
-/
inductive Respelled : SelectionSet → SelectionSet → Prop where
  | nil : Respelled [] []
  | reserved {alias? name arguments directives below rest others} (hreserved : name.isReserved = true)
      (hrest : Respelled rest others) :
      Respelled (.field alias? name arguments directives below :: rest) others
  | reservedOther {alias? name arguments directives below rest others} (hreserved : name.isReserved = true)
      (hrest : Respelled rest others) :
      Respelled rest (.field alias? name arguments directives below :: others)
  | field {alias? otherAlias? name arguments otherArguments directives otherDirectives below otherBelow rest others}
      (hbelow : Respelled below otherBelow) (hleaf : below = [] ↔ otherBelow = [])
      (hrest : Respelled rest others) :
      Respelled (.field alias? name arguments directives below :: rest)
        (.field otherAlias? name otherArguments otherDirectives otherBelow :: others)
  | spread {name directives otherDirectives rest others} (hrest : Respelled rest others) :
      Respelled (.spread name directives :: rest) (.spread name otherDirectives :: others)
  | inline {condition? directives otherDirectives body otherBody rest others} (hbody : Respelled body otherBody)
      (hrest : Respelled rest others) :
      Respelled (.inline condition? directives body :: rest) (.inline condition? otherDirectives otherBody :: others)

/-- Definitions of fields with the same name and named type, and with the same directive that names the field. -/
structure FieldDefinition.Respelled (directive? : Option Name) (field other : FieldDefinition) : Prop where
  name : field.name = other.name
  core : field.type.core = other.type.core
  directive : ∀ directive ∈ directive?, field.directive? directive = other.directive? directive

/-- Type systems with the same types, up to the spelling of fields. -/
structure TypeSystem.Respelled (directive? : Option Name) (system other : TypeSystem) : Prop where
  kind : ∀ name, system.kind? name = other.kind? name
  possible : ∀ name, system.possibleTypes name = other.possibleTypes name
  field : ∀ type name, Option.Rel (FieldDefinition.Respelled directive?) (system.field? type name)
    (other.field? type name)

structure AppliedField.Respelled (directive? : Option Name) (field other : AppliedField) : Prop where
  name : field.name = other.name
  definition : field.definition.Respelled directive? other.definition
  selections : QueryMask.Respelled field.selections other.selections
  leaf : field.selections = [] ↔ other.selections = []

section Collected

variable {system other : TypeSystem} {directive? : Option Name} {fragments others : Fragments} {type : Name}

theorem TypeSystem.Respelled.satisfies_eq (h : system.Respelled directive? other) (condition object : Name) :
    system.satisfies condition object = other.satisfies condition object := by
  unfold satisfies isPossible
  rw [h.kind, h.possible]

theorem TypeSystem.Respelled.admits_eq (h : system.Respelled directive? other) (condition? : Option Name)
    (object : Name) : system.admits condition? object = other.admits condition? object := by
  cases condition? with
  | none => rfl
  | some condition => exact h.satisfies_eq condition object

/-- Collections that fail alike, or end with the same fields. -/
inductive SameFields (directive? : Option Name) :
    Except MaskError (List AppliedField) → Except MaskError (List AppliedField) → Prop where
  | error (fault : MaskError) : SameFields directive? (.error fault) (.error fault)
  | ok {fields others : List AppliedField} (hfields : List.Forall₂ (AppliedField.Respelled directive?) fields others) :
      SameFields directive? (.ok fields) (.ok others)

theorem SameFields.append {front otherFront later otherLater : Except MaskError (List AppliedField)}
    (hfront : SameFields directive? front otherFront) (hlater : SameFields directive? later otherLater) :
    SameFields directive? (front >>= fun first => later >>= fun rest => pure (first ++ rest))
      (otherFront >>= fun first => otherLater >>= fun rest => pure (first ++ rest)) := by
  cases hfront with
  | error fault => exact .error fault
  | ok hfields =>
    cases hlater with
    | error fault => exact .error fault
    | ok hrest => exact .ok (List.rel_append hfields hrest)

/-- By induction on the fragments that are not yet active, and for these on how the selections correspond. -/
theorem Respelled.sameFields (hsystem : system.Respelled directive? other)
    (hfragments : fragments.Alike Respelled others) {selections respelled : SelectionSet}
    (h : Respelled selections respelled) (active : List Name) :
    SameFields directive? (collectFields system fragments type active selections)
      (collectFields other others type active respelled) := by
  induction hcount : fragments.inactive active using Nat.strongRecOn generalizing active selections respelled with
  | ind count ih =>
    subst hcount
    induction h with
    | nil =>
      rw [collectFields_nil, collectFields_nil]
      exact .ok .nil
    | reserved hreserved _ ihrest =>
      rw [collectFields_field_of_reserved hreserved]
      exact ihrest
    | reservedOther hreserved _ ihrest =>
      rw [collectFields_field_of_reserved hreserved]
      exact ihrest
    | @field _ _ name _ _ _ _ _ _ _ _ hbelow hleaf _ _ ihrest =>
      by_cases hreserved : name.isReserved = true
      · rw [collectFields_field_of_reserved hreserved, collectFields_field_of_reserved hreserved]
        exact ihrest
      · rw [collectFields_cons, collectFields_cons]
        refine SameFields.append ?_ ihrest
        rw [firstFields, firstFields, if_neg hreserved, if_neg hreserved]
        have hfield := hsystem.field type name
        generalize system.field? type name = definition?, other.field? type name = definitionOther? at hfield ⊢
        cases hfield with
        | none => exact .error _
        | some hdefinition => exact .ok (.cons ⟨rfl, hdefinition, hbelow, hleaf⟩ .nil)
    | @spread name _ _ _ _ _ ihrest =>
      rw [collectFields_cons, collectFields_cons]
      refine SameFields.append ?_ ihrest
      cases hfind : fragments.find? name with
      | none =>
        rw [firstFields, firstFields, hfind, hfragments.find?_of_none hfind]
        exact .error _
      | some fragment =>
        obtain ⟨counterpart, hfound, hcondition, hbody⟩ := hfragments.exists_of_find? hfind
        rw [firstFields, firstFields, hfind, hfound]
        simp only [hsystem.satisfies_eq, hcondition]
        by_cases hsatisfies : other.satisfies counterpart.condition type = true
        · rw [if_pos hsatisfies, if_pos hsatisfies]
          by_cases hactive : active.contains name = true
          · rw [if_pos hactive, if_pos hactive]
            exact .error _
          · rw [if_neg hactive, if_neg hactive]
            have hfewer := Fragments.inactive_cons_lt hfind (by simpa using hactive)
            exact ih _ hfewer hbody (name :: active) rfl
        · rw [if_neg hsatisfies, if_neg hsatisfies]
          exact .ok .nil
    | @inline condition? _ _ _ _ _ _ _ _ ihbody ihrest =>
      rw [collectFields_cons, collectFields_cons]
      refine SameFields.append ?_ ihrest
      rw [firstFields, firstFields, hsystem.admits_eq]
      by_cases hadmits : other.admits condition? type = true
      · rw [if_pos hadmits, if_pos hadmits]
        exact ihbody
      · rw [if_neg hadmits, if_neg hadmits]
        exact .ok .nil

end Collected

section Paths

variable {system other : TypeSystem} {directive? : Option Name} {fragments others : Fragments}
  {discriminator? : Option (Name → Option String)} {type : Name}

theorem FieldDefinition.Respelled.byDirective_eq {field counterpart : FieldDefinition}
    (h : field.Respelled directive? counterpart) {directive : Name} (hdirective : directive ∈ directive?)
    (system other : TypeSystem) (type : Name) :
    FieldNaming.byDirective directive system type field =
      FieldNaming.byDirective directive other type counterpart := by
  unfold FieldNaming.byDirective
  rw [h.directive directive hdirective, h.name]

/-- The naming is asked about the same field, and answers the same. -/
theorem AppliedField.Respelled.segment?_eq {field counterpart : AppliedField}
    (h : field.Respelled directive? counterpart) (system other : TypeSystem) (type : Name) :
    segment? system (.perType (directive?.map FieldNaming.byDirective) discriminator?) type field =
      segment? other (.perType (directive?.map FieldNaming.byDirective) discriminator?) type counterpart := by
  unfold segment? Policy.perType
  cases directive? with
  | none => simp only [Option.map_none, h.name]
  | some directive =>
    have hanswer := h.definition.byDirective_eq rfl system other type
    simp only [Option.map_some, hanswer, h.definition.name]

theorem AppliedField.Respelled.fieldPaths_eq {field counterpart : AppliedField}
    (h : field.Respelled directive? counterpart) (hsystem : system.Respelled directive? other)
    {compute computeOther : SelectionSet → Name → Run (List Path)}
    (hbelow : ∀ below, compute field.selections below = computeOther counterpart.selections below) :
    fieldPaths system (.perType (directive?.map FieldNaming.byDirective) discriminator?) compute type field =
      fieldPaths other (.perType (directive?.map FieldNaming.byDirective) discriminator?) computeOther type
        counterpart := by
  have hreturn : field.returnType = counterpart.returnType := h.definition.core
  have hcompute : compute field.selections = computeOther counterpart.selections := funext hbelow
  have hempty : field.selections.isEmpty = counterpart.selections.isEmpty := by
    rw [Bool.eq_iff_iff, List.isEmpty_iff, List.isEmpty_iff, h.leaf]
  unfold fieldPaths
  simp only [h.segment?_eq system other type, hreturn, hsystem.kind, hempty, subPaths_perType,
    hcompute, hsystem.possible, h.definition.name]

theorem Respelled.pathsWithin_eq (hsystem : system.Respelled directive? other)
    (hfragments : fragments.Alike Respelled others) {selections respelled : SelectionSet}
    (h : Respelled selections respelled) (depth : Nat) (type : Name) :
    pathsWithin system fragments (.perType (directive?.map FieldNaming.byDirective) discriminator?) depth selections
        type =
      pathsWithin other others (.perType (directive?.map FieldNaming.byDirective) discriminator?) depth respelled
        type := by
  induction depth generalizing selections respelled type with
  | zero => rfl
  | succ depth ih =>
    rw [pathsWithin_succ, pathsWithin_succ]
    have hfields : SameFields directive? (appliedFields system fragments type selections)
        (appliedFields other others type respelled) := by
      unfold appliedFields
      rw [hsystem.kind]
      by_cases hkind : other.kind? type = some .object
      · rw [if_pos hkind, if_pos hkind]
        exact h.sameFields hsystem hfragments []
      · rw [if_neg hkind, if_neg hkind]
        exact .error _
    generalize appliedFields system fragments type selections = fields,
      appliedFields other others type respelled = otherFields at hfields ⊢
    cases hfields with
    | error fault => rw [Run.ofExcept_error_bind, Run.ofExcept_error_bind]
    | ok hfields =>
      rw [Run.ofExcept_ok_bind, Run.ofExcept_ok_bind]
      refine Run.concatMap_eq_of_forall₂ (hfields.imp fun field counterpart hfield => ?_)
      exact hfield.fieldPaths_eq hsystem fun below => ih hfield.selections below

theorem TypeSystem.respelled_refl (directive? : Option Name) (system : TypeSystem) :
    system.Respelled directive? system where
  kind _ := rfl
  possible _ := rfl
  field type name := by
    cases system.field? type name with
    | none => exact .none
    | some definition => exact .some ⟨rfl, rfl, fun _ _ => rfl⟩

theorem respelled_pruned (selections : SelectionSet) : Respelled selections (SelectionSet.pruned selections) := by
  induction selections using SelectionSet.induction with
  | nil => exact .nil
  | field alias? name arguments directives selections rest ih ihrest =>
    cases hreserved : name.isReserved with
    | true => exact .reserved hreserved (.reservedOther hreserved ihrest)
    | false =>
      rw [SelectionSet.pruned, Selection.pruned, hreserved]
      exact .field ih SelectionSet.pruned_eq_nil_iff.symm ihrest
  | spread name directives rest ihrest => exact .spread ihrest
  | inline condition? directives selections rest ih ihrest => exact .inline ih ihrest

theorem Fragments.alike_respelled_pruned (fragments : Fragments) : fragments.Alike Respelled fragments.pruned := by
  intro name
  have hname := fragments.alike_pruned name
  generalize fragments.find? name = fragment?, fragments.pruned.find? name = kept? at hname ⊢
  cases hname with
  | none => exact .none
  | some hkept => exact .some ⟨hkept.1, hkept.2 ▸ respelled_pruned _⟩

/-- Spreads correspond, unless they lie below reserved fields. -/
theorem Respelled.spreads_pruned_sublist {selections respelled : SelectionSet} (h : Respelled selections respelled) :
    (SelectionSet.spreads (SelectionSet.pruned respelled)).Sublist (SelectionSet.spreads selections) := by
  induction h with
  | nil => exact .refl []
  | reserved _ _ ihrest => exact ihrest.trans (List.sublist_append_right _ _)
  | reservedOther hreserved _ ihrest =>
    rw [SelectionSet.pruned, Selection.pruned, if_pos hreserved]
    exact ihrest
  | field _ _ _ ihbelow ihrest =>
    rw [SelectionSet.pruned, Selection.pruned]
    split_ifs
    · exact ihrest.trans (List.sublist_append_right _ _)
    · exact ihbelow.append ihrest
  | spread _ ihrest => exact (List.Sublist.refl _).append ihrest
  | inline _ _ ihbody ihrest => exact ihbody.append ihrest

theorem Fragments.Acyclic.pruned_respelled (hacyclic : fragments.Acyclic)
    (hfragments : fragments.Alike Respelled others) : others.pruned.Acyclic := by
  have hspreads : others.pruned.Spreads ≤ fragments.Spreads := by
    rintro outer inner ⟨kept, hkept, hspread⟩
    obtain ⟨other, hother, hpruned⟩ := others.alike_pruned.exists_of_find?_other hkept
    obtain ⟨fragment, hfind, hrespelled⟩ := hfragments.exists_of_find?_other hother
    rw [hpruned] at hspread
    exact ⟨fragment, hfind, hrespelled.spreads_pruned_sublist.subset hspread⟩
  exact fun name hcycle => hacyclic name (Relation.TransGen.mono hspreads name name hcycle)

/-- Below reserved fields the other fragments may reach themselves; the run is that without what lies there. -/
theorem Fragments.Acyclic.pathsRun_respelled (hacyclic : fragments.Acyclic)
    (hsystem : system.Respelled directive? other) (hfragments : fragments.Alike Respelled others)
    {selections respelled : SelectionSet} (h : Respelled selections respelled) (type : Name) :
    pathsRun system fragments (.perType (directive?.map FieldNaming.byDirective) discriminator?) selections type =
      pathsRun other others (.perType (directive?.map FieldNaming.byDirective) discriminator?) respelled type := by
  have hpruned : ∀ depth,
      pathsWithin other others (.perType (directive?.map FieldNaming.byDirective) discriminator?) depth respelled
          type =
        pathsWithin other others.pruned (.perType (directive?.map FieldNaming.byDirective) discriminator?) depth
          (SelectionSet.pruned respelled) type := fun depth =>
    (respelled_pruned respelled).pathsWithin_eq (other.respelled_refl directive?) others.alike_respelled_pruned
      depth type
  have hends := hacyclic.endsWithin_depthBound system selections
  have hendsPruned := ((hacyclic.pruned_respelled hfragments).endsWithin_depthBound other
    (SelectionSet.pruned respelled)).mono (depthBound_pruned_le other others respelled)
  have hle := Nat.le_max_left (depthBound system fragments selections) (depthBound other others respelled)
  have hleOther := Nat.le_max_right (depthBound system fragments selections) (depthBound other others respelled)
  unfold pathsRun
  rw [← pathsWithin_of_endsWithin hends hle, h.pathsWithin_eq hsystem hfragments, hpruned, hpruned,
    pathsWithin_of_endsWithin hendsPruned hleOther]

end Paths

section Definitions

/-- Bodies of types that declare the same, up to the spelling of fields. Values of enums and input fields are free. -/
inductive TypeBody.Respelled (directive? : Option Name) : TypeBody → TypeBody → Prop where
  | scalar : Respelled directive? .scalar .scalar
  | object {implements fields others} (hfields : List.Forall₂ (FieldDefinition.Respelled directive?) fields others) :
      Respelled directive? (.object implements fields) (.object implements others)
  | interface {implements fields others}
      (hfields : List.Forall₂ (FieldDefinition.Respelled directive?) fields others) :
      Respelled directive? (.interface implements fields) (.interface implements others)
  | union {members} : Respelled directive? (.union members) (.union members)
  | enum {values others} : Respelled directive? (.enum values) (.enum others)
  | inputObject {fields others} : Respelled directive? (.inputObject fields) (.inputObject others)

/-- Definitions of the same type, up to the spelling of its fields. Roots and definitions of directives are free. -/
inductive SchemaDefinition.Respelled (directive? : Option Name) : SchemaDefinition → SchemaDefinition → Prop where
  | type {definition other : TypeDefinition} (hname : definition.name = other.name)
      (hbody : definition.body.Respelled directive? other.body) :
      Respelled directive? (.type definition) (.type other)
  | roots {definition other} : Respelled directive? (.roots definition) (.roots other)
  | directive {definition other} : Respelled directive? (.directive definition) (.directive other)

namespace TypeBody.Respelled

variable {directive? : Option Name} {body other : TypeBody}

theorem kind_eq (h : body.Respelled directive? other) : body.kind = other.kind := by
  cases h <;> rfl

theorem implements_eq (h : body.Respelled directive? other) : body.implements = other.implements := by
  cases h <;> rfl

theorem members_eq (h : body.Respelled directive? other) : body.members = other.members := by
  cases h <;> rfl

theorem fields (h : body.Respelled directive? other) :
    List.Forall₂ (FieldDefinition.Respelled directive?) body.fields other.fields := by
  cases h with
  | object hfields => exact hfields
  | interface hfields => exact hfields
  | scalar => exact .nil
  | union => exact .nil
  | enum => exact .nil
  | inputObject => exact .nil

end TypeBody.Respelled

namespace Schema

variable {directive? : Option Name} {definitions others : List SchemaDefinition}

theorem bodiesOf_respelled (h : List.Forall₂ (SchemaDefinition.Respelled directive?) definitions others)
    (name : Name) :
    List.Forall₂ (TypeBody.Respelled directive?) (bodiesOf definitions name) (bodiesOf others name) := by
  refine List.rel_filterMap (fun definition other hdefinition => ?_) h
  cases hdefinition with
  | roots => exact .none
  | directive => exact .none
  | type hname hbody =>
    unfold SchemaDefinition.bodyOf?
    simp only [hname]
    split_ifs
    · exact .some hbody
    · exact .none

theorem typeNames_respelled (h : List.Forall₂ (SchemaDefinition.Respelled directive?) definitions others) :
    typeNames definitions = typeNames others := by
  have hnames : List.Forall₂ (· = ·) (typeNames definitions) (typeNames others) := by
    refine List.rel_filterMap (fun definition other hdefinition => ?_) h
    cases hdefinition with
    | roots => exact .none
    | directive => exact .none
    | type hname _ => exact .some hname
  rwa [List.forall₂_eq_eq_eq] at hnames

/-- Bodies that list the same in turn list the same in all. -/
theorem flatMap_eq_of_forall₂ {list : TypeBody → List Name} {bodies otherBodies : List TypeBody}
    (h : List.Forall₂ (TypeBody.Respelled directive?) bodies otherBodies)
    (hlist : ∀ body other : TypeBody, body.Respelled directive? other → list body = list other) :
    bodies.flatMap list = otherBodies.flatMap list := by
  induction h with
  | nil => rfl
  | cons hfirst _ ih => rw [List.flatMap_cons, List.flatMap_cons, hlist _ _ hfirst, ih]

theorem kind?_respelled (h : List.Forall₂ (SchemaDefinition.Respelled directive?) definitions others)
    (name : Name) : (ofDefinitions definitions).kind? name = (ofDefinitions others).kind? name := by
  have hbodies := bodiesOf_respelled h name
  rw [kind?_ofDefinitions, kind?_ofDefinitions]
  generalize bodiesOf definitions name = bodies, bodiesOf others name = otherBodies at hbodies ⊢
  cases hbodies with
  | nil => rfl
  | cons hfirst _ => simp only [List.head?_cons, Option.map_some, hfirst.kind_eq]

theorem getLast?_of_forall₂ {α β : Type} {rel : α → β → Prop} {items : List α} {others : List β}
    (h : List.Forall₂ rel items others) : Option.Rel rel items.getLast? others.getLast? := by
  have hreverse : List.Forall₂ rel items.reverse others.reverse := List.rel_reverse h
  rw [List.getLast?_eq_head?_reverse, List.getLast?_eq_head?_reverse]
  generalize items.reverse = first, others.reverse = second at hreverse ⊢
  cases hreverse with
  | nil => exact .none
  | cons hlast _ => exact .some hlast

theorem field?_respelled (h : List.Forall₂ (SchemaDefinition.Respelled directive?) definitions others)
    (type name : Name) :
    Option.Rel (FieldDefinition.Respelled directive?) ((ofDefinitions definitions).field? type name)
      ((ofDefinitions others).field? type name) := by
  have hfields := List.rel_flatMap (bodiesOf_respelled h type) fun _ _ hbody => hbody.fields
  have hnamed : List.Forall₂ (FieldDefinition.Respelled directive?)
      (((bodiesOf definitions type).flatMap TypeBody.fields).filter (·.name == name))
      (((bodiesOf others type).flatMap TypeBody.fields).filter (·.name == name)) := by
    refine List.rel_filter (fun field other hfield => ?_) hfields
    show (field.name == name) = true ↔ (other.name == name) = true
    rw [hfield.name]
  rw [field?_ofDefinitions, field?_ofDefinitions]
  exact getLast?_of_forall₂ hnamed

theorem possibleTypes_respelled (h : List.Forall₂ (SchemaDefinition.Respelled directive?) definitions others)
    (name : Name) : (ofDefinitions definitions).possibleTypes name = (ofDefinitions others).possibleTypes name := by
  have hkinds := kind?_respelled h
  by_cases hunion : (ofDefinitions definitions).kind? name = some .union
  · have hmembers := flatMap_eq_of_forall₂ (bodiesOf_respelled h name)
      fun _ _ (hbody : TypeBody.Respelled directive? _ _) => hbody.members_eq
    rw [possibleTypes_of_union hunion, possibleTypes_of_union (hkinds name ▸ hunion), hmembers]
    simp only [hkinds]
  by_cases hinterface : (ofDefinitions definitions).kind? name = some .interface
  · have himplements : ∀ object, (∃ body ∈ bodiesOf definitions object, name ∈ body.implements) ↔
        ∃ body ∈ bodiesOf others object, name ∈ body.implements := by
      intro object
      have hlists := flatMap_eq_of_forall₂ (bodiesOf_respelled h object)
        fun _ _ (hbody : TypeBody.Respelled directive? _ _) => hbody.implements_eq
      rw [← List.mem_flatMap, ← List.mem_flatMap, hlists]
    rw [possibleTypes_of_interface hinterface, possibleTypes_of_interface (hkinds name ▸ hinterface),
      typeNames_respelled h]
    simp only [hkinds, himplements]
  · rw [possibleTypes_of_neither hunion hinterface,
      possibleTypes_of_neither (hkinds name ▸ hunion) (hkinds name ▸ hinterface)]

theorem respelled_ofDefinitions (h : List.Forall₂ (SchemaDefinition.Respelled directive?) definitions others) :
    (ofDefinitions definitions).typeSystem.Respelled directive? (ofDefinitions others).typeSystem where
  kind := kind?_respelled h
  possible := possibleTypes_respelled h
  field := field?_respelled h

end Schema

end Definitions

section Words

variable {system : TypeSystem} {fragments : Fragments} {discriminator? : Option (Name → Option String)}

/-- The name of a field of some type that is not reserved, or the discriminator of a possible type. -/
def TypeSystem.Provides (system : TypeSystem) (discriminator? : Option (Name → Option String)) (word : Name) : Prop :=
  (word.isReserved = false ∧ ∃ parent definition, system.field? parent word = some definition) ∨
    ∃ abstract object, object ∈ system.possibleTypes abstract ∧ discriminator?.bind (· object) = some word

theorem CompleteChain.provides {chain : List Link} {selections : SelectionSet} {type : Name}
    (h : CompleteChain system fragments none discriminator? chain selections type) :
    ∀ word ∈ chain.flatMap Link.words, system.Provides discriminator? word := by
  induction chain generalizing selections type with
  | nil => exact h.elim
  | cons link rest ih =>
    obtain ⟨place, segment, variant?⟩ := link
    obtain ⟨field, ⟨-, hopen, hdefinition⟩, hsegment, hrest⟩ := h
    have hname : field.name = segment := Option.some.inj hsegment
    have hfirst : system.Provides discriminator? segment :=
      .inl ⟨hname ▸ hopen, type, field.definition, hname ▸ hdefinition⟩
    rw [List.flatMap_cons, List.forall_mem_append, Link.words, List.forall_mem_cons]
    cases variant? with
    | none =>
      have hlater : ∀ word ∈ rest.flatMap Link.words, system.Provides discriminator? word := by
        rcases hrest with ⟨-, hend⟩ | ⟨-, -, hrest⟩
        · simp [hend]
        · exact ih hrest
      exact ⟨⟨hfirst, List.forall_mem_nil _⟩, hlater⟩
    | some variant =>
      obtain ⟨-, -, discriminator, object, rfl, hindex, htext, hrest⟩ := hrest
      have hvariant : system.Provides (some discriminator) variant.discriminator :=
        .inr ⟨field.returnType, object, List.mem_of_getElem? hindex, htext⟩
      exact ⟨⟨hfirst, List.forall_mem_singleton.mpr hvariant⟩, ih hrest⟩

theorem provides_of_selectedPaths {selections : SelectionSet} {type : Name} {paths : List Path}
    (h : selectedPaths system fragments (.perType none discriminator?) selections type = .ok paths) :
    ∀ path ∈ paths, ∃ words : List Name, path = ".".intercalate words ∧
      ∀ word ∈ words, system.Provides discriminator? word := by
  obtain ⟨chains, -, hmem, rfl⟩ := enumerated_pathsWithin h
  intro path hpath
  obtain ⟨chain, hchain, rfl⟩ := List.mem_map.mp hpath
  exact ⟨_, rfl, ((hmem chain).mp hchain).provides⟩

end Words

/--
Aliases, arguments, directives and reserved fields of a document make no difference to the result, and neither do
wrappers, arguments, descriptions and directives of fields in a schema, apart from the directive that names fields.
Where the first fragments reach themselves, this is so if the object types are listed, as those of schemas are.
Without such a directive all words of the paths are names of fields and discriminators.
-/
theorem selectedPaths_respelled (directive? : Option Name) (discriminator? : Option (Name → Option String))
    {fragments others : Fragments} {selections respelled : SelectionSet} (type : Name)
    (hfragments : fragments.Alike Respelled others) (hselections : Respelled selections respelled) :
    (∀ system other : TypeSystem, system.Respelled directive? other →
      fragments.Acyclic ∨ system.Listed ∧ other.Listed →
      selectedPaths system fragments (.perType (directive?.map FieldNaming.byDirective) discriminator?) selections
          type =
        selectedPaths other others (.perType (directive?.map FieldNaming.byDirective) discriminator?) respelled
          type) ∧
    (∀ definitions otherDefinitions : List SchemaDefinition,
      List.Forall₂ (SchemaDefinition.Respelled directive?) definitions otherDefinitions →
      selectedPaths (Schema.ofDefinitions definitions).typeSystem fragments
          (.perType (directive?.map FieldNaming.byDirective) discriminator?) selections type =
        selectedPaths (Schema.ofDefinitions otherDefinitions).typeSystem others
          (.perType (directive?.map FieldNaming.byDirective) discriminator?) respelled type) ∧
    ∀ (system : TypeSystem) (paths : List Path),
      selectedPaths system fragments (.perType none discriminator?) selections type = .ok paths →
        ∀ path ∈ paths, ∃ words : List Name, path = ".".intercalate words ∧
          ∀ word ∈ words, system.Provides discriminator? word := by
  have hsystems : ∀ system other : TypeSystem, system.Respelled directive? other →
      fragments.Acyclic ∨ system.Listed ∧ other.Listed →
      selectedPaths system fragments (.perType (directive?.map FieldNaming.byDirective) discriminator?) selections
          type =
        selectedPaths other others (.perType (directive?.map FieldNaming.byDirective) discriminator?) respelled
          type := by
    intro system other hsystem hbounds
    rcases hbounds with hacyclic | ⟨hlisted, hlistedOther⟩
    · unfold selectedPaths
      rw [hacyclic.pathsRun_respelled hsystem hfragments hselections]
    · exact selectedPaths_eq_of_pathsWithin_eq hlisted hlistedOther
        fun depth => hselections.pathsWithin_eq hsystem hfragments depth type
  refine ⟨hsystems, ?_, fun system paths hpaths => provides_of_selectedPaths hpaths⟩
  intro definitions otherDefinitions hdefinitions
  exact hsystems _ _ (Schema.respelled_ofDefinitions hdefinitions) (.inr ⟨Schema.listed _, Schema.listed _⟩)

namespace Pets

/-! Here the owner is read with aliases, arguments, directives and type names, and fields return lists. -/

def skipped : Directive := ⟨"skip", [("if", .boolean true)]⟩

def otherSelections : SelectionSet :=
  [.field (some "key") "id" [("format", .enum "HEX")] [skipped] [],
   .field none "__schema" [] [] [leaf "types"],
   .field (some "animal") "pet" [] []
     [.spread "Named" [skipped], .inline (some "Dog") [skipped] [leaf "breed", leaf "__typename"]]]

def otherFragments : Fragments := [("Named", ⟨"Animal", [skipped], [leaf "__typename", leaf "name"]⟩)]

def listOf (name type : Name) : FieldDefinition :=
  ⟨some "several", name, [], .list (.named type true) true, [⟨"deprecated", []⟩]⟩

def otherDefinitions : List SchemaDefinition :=
  [typeOf "Owner" (.object [] [listOf "id" "ID", listOf "pet" "Animal"]),
   typeOf "Animal" (.interface [] [fieldOf "name" "String"]),
   typeOf "Dog" (.object ["Animal"] [listOf "name" "String", fieldOf "breed" "String"]),
   typeOf "Cat" (.object ["Animal"] [fieldOf "name" "String"])]

theorem listOf_respelled (name type : Name) :
    FieldDefinition.Respelled (some "mask") (fieldOf name type) (listOf name type) where
  name := rfl
  core := rfl
  directive := by
    intro directive hdirective
    obtain rfl := Option.some.inj hdirective
    rfl

theorem fieldOf_respelled (name type : Name) :
    FieldDefinition.Respelled (some "mask") (fieldOf name type) (fieldOf name type) :=
  ⟨rfl, rfl, fun _ _ => rfl⟩

theorem paths_of_respelled :
    fragments.Alike Respelled otherFragments ∧ Respelled selections otherSelections ∧
      List.Forall₂ (SchemaDefinition.Respelled (some "mask")) definitions otherDefinitions ∧
      selectedPaths schema.typeSystem fragments (.perType (some (.byDirective "mask")) (some some)) selections
          "Owner" = .ok ["id", "pet.Dog.name", "pet.Dog.breed", "pet.Cat.name"] ∧
      selectedPaths (Schema.ofDefinitions otherDefinitions).typeSystem otherFragments
          (.perType (some (.byDirective "mask")) (some some)) otherSelections "Owner" =
        .ok ["id", "pet.Dog.name", "pet.Dog.breed", "pet.Cat.name"] ∧
      selectedPaths schema.typeSystem fragments (.perType none (some some)) selections "Owner" =
        .ok ["id", "pet.Dog.name", "pet.Dog.breed", "pet.Cat.name"] ∧
      ∀ path ∈ ["id", "pet.Dog.name", "pet.Dog.breed", "pet.Cat.name"], ∃ words : List Name,
        path = ".".intercalate words ∧ ∀ word ∈ words, schema.typeSystem.Provides (some some) word := by
  have hname : Name.isReserved "__typename" = true := by decide
  have hschema : Name.isReserved "__schema" = true := by decide
  have hfragments : fragments.Alike Respelled otherFragments :=
    Fragments.alike_nil.cons rfl (.reservedOther hname (.field .nil Iff.rfl .nil))
  have hbreed : Respelled [leaf "breed"] [leaf "breed", leaf "__typename"] :=
    .field .nil Iff.rfl (.reservedOther hname .nil)
  have hbelow : Respelled [leaf "__typename", .spread "Named" [], .inline (some "Dog") [] [leaf "breed"]]
      [.spread "Named" [skipped], .inline (some "Dog") [skipped] [leaf "breed", leaf "__typename"]] :=
    .reserved hname (.spread (.inline hbreed .nil))
  have hselections : Respelled selections otherSelections :=
    .field .nil Iff.rfl (.reservedOther hschema (.field hbelow (by simp) .nil))
  have hdefinitions : List.Forall₂ (SchemaDefinition.Respelled (some "mask")) definitions otherDefinitions := by
    refine .cons (.type rfl (.object ?_)) (.cons (.type rfl (.interface ?_))
      (.cons (.type rfl (.object ?_)) (.cons (.type rfl (.object ?_)) .nil)))
    · exact .cons (listOf_respelled _ _) (.cons (listOf_respelled _ _) .nil)
    · exact .cons (fieldOf_respelled _ _) .nil
    · exact .cons (listOf_respelled _ _) (.cons (fieldOf_respelled _ _) .nil)
    · exact .cons (fieldOf_respelled _ _) .nil
  have hnamed : selectedPaths schema.typeSystem fragments (.perType (some (.byDirective "mask")) (some some))
      selections "Owner" = .ok ["id", "pet.Dog.name", "pet.Dog.breed", "pet.Cat.name"] := by cbv
  have hpaths : selectedPaths schema.typeSystem fragments (.perType none (some some)) selections "Owner" =
      .ok ["id", "pet.Dog.name", "pet.Dog.breed", "pet.Cat.name"] := by cbv
  obtain ⟨-, hschemas, hwords⟩ :=
    selectedPaths_respelled (some "mask") (some some) "Owner" hfragments hselections
  exact ⟨hfragments, hselections, hdefinitions, hnamed, (hschemas _ _ hdefinitions).symm.trans hnamed, hpaths,
    hwords _ _ hpaths⟩

/-- Selecting only reserved fields is not the same as selecting none. -/
example : selectedPaths schema.typeSystem fragments (.perType none (some some))
    [.field none "pet" [] [] [leaf "__typename"]] "Owner" = .ok [] := by cbv

end Pets

end QueryMask
