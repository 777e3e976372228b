import QueryMask.Query.AppliedField
import QueryMask.Schema.Basic
import QueryMask.Proofs.Fragments
import QueryMask.Proofs.Places
import QueryMask.Proofs.Runs

/-! The collected fields of a selection set: one selection at a time, without active fragments, and by place. -/

namespace QueryMask

section Collection

variable {system : TypeSystem} {fragments : Fragments} {type : Name} {active : List Name}

def firstFields (system : TypeSystem) (fragments : Fragments) (type : Name) (active : List Name) :
    Selection → Except MaskError (List AppliedField)
  | .field _ name _ _ selections =>
    if name.isReserved then .ok []
    else match system.field? type name with
      | none => .error (.unknownField type name)
      | some definition => .ok [⟨name, definition, selections⟩]
  | .spread name _ =>
    match fragments.find? name with
    | none => .error (.unknownFragment name)
    | some fragment =>
      if system.satisfies fragment.condition type then
        if active.contains name then .error (.fragmentCycle name)
        else collectFields system fragments type (name :: active) fragment.selections
      else .ok []
  | .inline condition? _ selections =>
    if system.admits condition? type then collectFields system fragments type active selections
    else .ok []

theorem firstFields_field_eq_ok_iff {alias? : Option Name} {name : Name} {arguments : List Argument}
    {directives : List Directive} {selections : SelectionSet} {front : List AppliedField} :
    firstFields system fragments type active (.field alias? name arguments directives selections) =
        .ok front ↔
      (name.isReserved = true ∧ front = []) ∨
        (name.isReserved = false ∧ ∃ definition, system.field? type name = some definition ∧
          front = [⟨name, definition, selections⟩]) := by
  simp only [firstFields]
  cases name.isReserved with
  | true => simp
  | false =>
    cases system.field? type name with
    | none => simp
    | some definition => simpa using eq_comm

theorem firstFields_spread_eq_ok_iff {name : Name} {directives : List Directive}
    {front : List AppliedField} :
    firstFields system fragments type active (.spread name directives) = .ok front ↔
      ∃ fragment, fragments.find? name = some fragment ∧
        ((system.satisfies fragment.condition type = false ∧ front = []) ∨
          (system.satisfies fragment.condition type = true ∧ active.contains name = false ∧
            collectFields system fragments type (name :: active) fragment.selections = .ok front)) := by
  simp only [firstFields]
  cases fragments.find? name with
  | none => simp
  | some fragment =>
    simp only [Option.some.injEq, exists_eq_left']
    cases system.satisfies fragment.condition type with
    | false => simp
    | true => cases active.contains name <;> simp

theorem firstFields_inline_eq_ok_iff {condition? : Option Name} {directives : List Directive}
    {selections : SelectionSet} {front : List AppliedField} :
    firstFields system fragments type active (.inline condition? directives selections) = .ok front ↔
      (system.admits condition? type = false ∧ front = []) ∨
        (system.admits condition? type = true ∧
          collectFields system fragments type active selections = .ok front) := by
  simp only [firstFields]
  cases system.admits condition? type <;> simp

private theorem ok_nil_append (later : Except MaskError (List AppliedField)) :
    ((.ok [] : Except MaskError (List AppliedField)) >>= fun front =>
      later >>= fun rest => pure (front ++ rest)) = later := by
  cases later <;> rfl

/-- Selections contribute one after another; the first fault is final. -/
theorem collectFields_cons (selection : Selection) (rest : SelectionSet) :
    collectFields system fragments type active (selection :: rest) =
      firstFields system fragments type active selection >>= fun front =>
        collectFields system fragments type active rest >>= fun later => pure (front ++ later) := by
  cases selection with
  | field alias? name arguments directives selections =>
    rw [collectFields, firstFields]
    split_ifs
    · rw [ok_nil_append]
    · cases system.field? type name <;> rfl
  | spread name directives =>
    cases hfind : fragments.find? name with
    | none => rw [collectFields_spread_of_unknown hfind, firstFields, hfind]; rfl
    | some fragment =>
      rw [collectFields_spread_of_known hfind, firstFields, hfind]
      dsimp only
      split_ifs
      · rfl
      · rfl
      · rw [ok_nil_append]
  | inline condition? directives selections =>
    rw [collectFields, firstFields]
    split_ifs
    · rfl
    · rw [ok_nil_append]

theorem collectFields_field_of_reserved {alias? : Option Name} {name : Name} {arguments : List Argument}
    {directives : List Directive} {selections rest : SelectionSet} (h : name.isReserved = true) :
    collectFields system fragments type active (.field alias? name arguments directives selections :: rest) =
      collectFields system fragments type active rest := by
  rw [collectFields, if_pos h]

theorem collectFields_cons_eq_ok_iff {selection : Selection} {rest : SelectionSet}
    {fields : List AppliedField} :
    collectFields system fragments type active (selection :: rest) = .ok fields ↔
      ∃ front later, firstFields system fragments type active selection = .ok front ∧
        collectFields system fragments type active rest = .ok later ∧ fields = front ++ later := by
  rw [collectFields_cons, bind_eq_ok_iff]
  constructor
  · rintro ⟨front, hfront, h⟩
    obtain ⟨later, hlater, hfields⟩ := bind_eq_ok_iff.mp h
    exact ⟨front, later, hfront, hlater, (Except.ok.inj hfields).symm⟩
  · rintro ⟨front, later, hfront, hlater, rfl⟩
    exact ⟨front, hfront, bind_eq_ok_iff.mpr ⟨later, hlater, rfl⟩⟩

/-- Two lists of selections contribute one after the other. -/
theorem collectFields_append_eq_ok_iff {front later : SelectionSet} {fields : List AppliedField} :
    collectFields system fragments type active (front ++ later) = .ok fields ↔
      ∃ frontFields laterFields, collectFields system fragments type active front = .ok frontFields ∧
        collectFields system fragments type active later = .ok laterFields ∧
          fields = frontFields ++ laterFields := by
  induction front generalizing fields with
  | nil => simp [collectFields_nil]
  | cons selection rest ih =>
    rw [List.cons_append, collectFields_cons_eq_ok_iff]
    constructor
    · rintro ⟨first, others, hfirst, hothers, rfl⟩
      obtain ⟨restFields, laterFields, hrest, hlater, rfl⟩ := ih.mp hothers
      have hfront := collectFields_cons_eq_ok_iff.mpr ⟨first, restFields, hfirst, hrest, rfl⟩
      exact ⟨_, laterFields, hfront, hlater, (List.append_assoc _ _ _).symm⟩
    · rintro ⟨_, laterFields, hfront, hlater, rfl⟩
      obtain ⟨first, restFields, hfirst, hrest, rfl⟩ := collectFields_cons_eq_ok_iff.mp hfront
      have hothers := ih.mpr ⟨restFields, laterFields, hrest, hlater, rfl⟩
      exact ⟨first, _, hfirst, hothers, List.append_assoc _ _ _⟩

/-- Active fragments out of reach make no difference. -/
theorem collectFields_of_fresh (hacyclic : fragments.Acyclic) {active other : List Name}
    {selections : SelectionSet} (hactive : fragments.Fresh active selections)
    (hother : fragments.Fresh other selections) :
    collectFields system fragments type active selections =
      collectFields system fragments type other selections := by
  induction selections using hacyclic.induction generalizing active other with
  | nil => rw [collectFields_nil, collectFields_nil]
  | field alias? name arguments directives selections rest _ ihrest =>
    rw [collectFields_cons, collectFields_cons, ihrest hactive.rest hother.rest]
    rfl
  | unknown name directives rest hfind ihrest =>
    rw [collectFields_spread_of_unknown hfind, collectFields_spread_of_unknown hfind]
  | known name directives fragment rest hfind ihbody ihrest =>
    rw [collectFields_spread_of_known hfind, collectFields_spread_of_known hfind,
      hactive.not_active, hother.not_active, ihrest hactive.rest hother.rest,
      ihbody (hactive.spread hacyclic hfind) (hother.spread hacyclic hfind)]
  | inline condition? directives selections rest ihbody ihrest =>
    rw [collectFields_cons, collectFields_cons, ihrest hactive.rest hother.rest, firstFields,
      firstFields, ihbody hactive.inline hother.inline]

/-- Without cycles a spread contributes the fields of its fragment. -/
theorem firstFields_spread_of_acyclic (hacyclic : fragments.Acyclic) {name : Name}
    {directives : List Directive} {fragment : Fragment}
    (hfind : fragments.find? name = some fragment) :
    firstFields system fragments type [] (.spread name directives) =
      if system.satisfies fragment.condition type then
        collectFields system fragments type [] fragment.selections
      else .ok [] := by
  rw [firstFields, hfind]
  simp only [List.contains_nil, Bool.false_eq_true, if_false]
  rw [collectFields_of_fresh hacyclic (Fragments.fresh_body hacyclic hfind) Fragments.fresh_nil]

/-- An applied field at its place in a selection set on an object type. -/
def AppliedAt (system : TypeSystem) (fragments : Fragments) (type : Name) (selections : SelectionSet)
    (place : Place) (field : AppliedField) : Prop :=
  (∃ alias? arguments directives,
    Reached fragments (system.admits · type) selections place
      (.field alias? field.name arguments directives field.selections)) ∧
  field.name.isReserved = false ∧ system.field? type field.name = some field.definition

theorem AppliedAt.ne_nil {selections : SelectionSet} {place : Place} {field : AppliedField}
    (h : AppliedAt system fragments type selections place field) : place ≠ [] := by
  obtain ⟨⟨_, _, _, hreached⟩, -, -⟩ := h
  exact hreached.ne_nil

theorem AppliedAt.unique {selections : SelectionSet} {place : Place} {field other : AppliedField}
    (h : AppliedAt system fragments type selections place field)
    (hother : AppliedAt system fragments type selections place other) : field = other := by
  obtain ⟨⟨_, _, _, hreached⟩, -, hdefinition⟩ := h
  obtain ⟨⟨_, _, _, hreached'⟩, -, hdefinition'⟩ := hother
  obtain ⟨-, hname, -, -, hselections⟩ := Selection.field.inj (hreached.unique hreached')
  obtain ⟨name, definition, selections⟩ := field
  obtain ⟨name', definition', selections'⟩ := other
  dsimp only at hname hselections hdefinition hdefinition'
  subst hname hselections
  rw [Option.some.inj (hdefinition.symm.trans hdefinition')]

theorem appliedAt_cons_succ {selection : Selection} {rest : SelectionSet} {place : Place} {index : Nat}
    {field : AppliedField} :
    AppliedAt system fragments type (selection :: rest) ((index + 1) :: place) field ↔
      AppliedAt system fragments type rest (index :: place) field := by
  simp only [AppliedAt, reached_cons_succ]

theorem appliedAt_field_zero {alias? : Option Name} {name : Name} {arguments : List Argument}
    {directives : List Directive} {selections rest : SelectionSet} {place : Place}
    {field : AppliedField} :
    AppliedAt system fragments type (.field alias? name arguments directives selections :: rest)
        (0 :: place) field ↔
      place = [] ∧ name = field.name ∧ selections = field.selections ∧
        name.isReserved = false ∧ system.field? type name = some field.definition := by
  simp only [AppliedAt, reached_field_zero, Selection.field.injEq]
  constructor
  · rintro ⟨⟨_, _, _, rfl, -, hname, -, -, hselections⟩, hopen, hdefinition⟩
    exact ⟨rfl, hname.symm, hselections.symm, hname ▸ hopen, hname ▸ hdefinition⟩
  · rintro ⟨rfl, rfl, rfl, hopen, hdefinition⟩
    exact ⟨⟨_, _, _, rfl, rfl, rfl, rfl, rfl, rfl⟩, hopen, hdefinition⟩

theorem appliedAt_inline_zero {condition? : Option Name} {directives : List Directive}
    {selections rest : SelectionSet} {place : Place} {field : AppliedField} :
    AppliedAt system fragments type (.inline condition? directives selections :: rest) (0 :: place)
        field ↔
      system.admits condition? type = true ∧ AppliedAt system fragments type selections place field := by
  simp only [AppliedAt, reached_inline_zero, reduceCtorEq, and_false, false_or, exists_and_left,
    and_assoc]

theorem appliedAt_spread_zero {name : Name} {directives : List Directive} {rest : SelectionSet}
    {place : Place} {field : AppliedField} :
    AppliedAt system fragments type (.spread name directives :: rest) (0 :: place) field ↔
      ∃ fragment, fragments.find? name = some fragment ∧
        system.satisfies fragment.condition type = true ∧
          AppliedAt system fragments type fragment.selections place field := by
  simp only [AppliedAt, reached_spread_zero, reduceCtorEq, and_false, false_or]
  constructor
  · rintro ⟨⟨alias?, arguments, directives, fragment, hfind, hadmits, hreached⟩, hfield⟩
    exact ⟨fragment, hfind, hadmits, ⟨alias?, arguments, directives, hreached⟩, hfield⟩
  · rintro ⟨fragment, hfind, hadmits, ⟨alias?, arguments, directives, hreached⟩, hfield⟩
    exact ⟨⟨alias?, arguments, directives, fragment, hfind, hadmits, hreached⟩, hfield⟩

private theorem placed_cons {first : Place → AppliedField → Prop} {selection : Selection}
    {rest : SelectionSet} {front later : List AppliedField} (hfirst : Placed first front)
    (hzero : ∀ place field,
      AppliedAt system fragments type (selection :: rest) (0 :: place) field ↔ first place field)
    (hrest : Placed (AppliedAt system fragments type rest) later) :
    Placed (AppliedAt system fragments type (selection :: rest)) (front ++ later) :=
  hfirst.append hrest (fun _ h => h.ne_nil rfl) (fun _ h => h.ne_nil rfl) hzero
    fun _ _ _ => appliedAt_cons_succ

/-- The collected fields are those at the places of the selection set, in document order. -/
theorem placed_collectFields {selections : SelectionSet} {fields : List AppliedField}
    (h : collectFields system fragments type active selections = .ok fields) :
    Placed (AppliedAt system fragments type selections) fields := by
  induction active, selections using fragments.traversal generalizing fields with
  | nil active =>
    obtain rfl : [] = fields := by simpa [collectFields] using h
    refine .nil ?_
    rintro place field ⟨⟨_, _, _, hreached⟩, -⟩
    exact not_reached_nil hreached
  | field active alias? name arguments directives selections rest ihrest =>
    obtain ⟨front, later, hfront, hlater, rfl⟩ := collectFields_cons_eq_ok_iff.mp h
    refine placed_cons ?_ (fun _ _ => appliedAt_field_zero) (ihrest hlater)
    rcases firstFields_field_eq_ok_iff.mp hfront with ⟨hreserved, rfl⟩ | ⟨hopen, definition, hdefinition, rfl⟩
    · exact .nil fun place field => by simp_all
    · refine .single fun place field => ?_
      simp only [hdefinition, Option.some.injEq, hopen, true_and]
      constructor
      · rintro ⟨rfl, rfl, rfl, rfl⟩
        exact ⟨rfl, rfl⟩
      · rintro ⟨rfl, rfl⟩
        exact ⟨rfl, rfl, rfl, rfl⟩
  | spread active name directives rest ihbody ihrest =>
    obtain ⟨front, later, hfront, hlater, rfl⟩ := collectFields_cons_eq_ok_iff.mp h
    refine placed_cons ?_ (fun _ _ => appliedAt_spread_zero) (ihrest hlater)
    obtain ⟨fragment, hfind, ⟨hsatisfies, rfl⟩ | ⟨hsatisfies, hactive, hbody⟩⟩ :=
      firstFields_spread_eq_ok_iff.mp hfront
    · exact .nil fun place field => by simp_all
    · simpa [hfind, hsatisfies] using ihbody fragment hfind hactive hbody
  | inline active condition? directives selections rest ihbody ihrest =>
    obtain ⟨front, later, hfront, hlater, rfl⟩ := collectFields_cons_eq_ok_iff.mp h
    refine placed_cons ?_ (fun _ _ => appliedAt_inline_zero) (ihrest hlater)
    rcases firstFields_inline_eq_ok_iff.mp hfront with ⟨hadmits, rfl⟩ | ⟨hadmits, hbody⟩
    · exact .nil fun place field => by simp_all
    · simpa [hadmits] using ihbody hbody

theorem appliedFields_eq_ok_iff {selections : SelectionSet} {fields : List AppliedField} :
    appliedFields system fragments type selections = .ok fields ↔
      system.kind? type = some .object ∧
        collectFields system fragments type [] selections = .ok fields := by
  unfold appliedFields
  split_ifs with hkind <;> simp [hkind]

/-- What can be wrong with the selections on a type, in the type system or among the fragments. -/
def MaskError.IsSelectionFault : MaskError → Prop
  | .unknownField _ _ | .unknownFragment _ | .fragmentCycle _ => True
  | .unknownType _ | .invalidSchema _ | .invalidQuery _ | .fieldNotFound _ | .invalidSettings _ => False
  | .endlessSelection => False

theorem collectFields_cons_eq_error {selection : Selection} {rest : SelectionSet} {fault : MaskError}
    (h : collectFields system fragments type active (selection :: rest) = .error fault) :
    firstFields system fragments type active selection = .error fault ∨
      collectFields system fragments type active rest = .error fault := by
  rw [collectFields_cons, bind_eq_error_iff] at h
  rcases h with hfirst | ⟨front, -, hlater⟩
  · exact .inl hfirst
  · rcases bind_eq_error_iff.mp hlater with hrest | ⟨later, -, hdone⟩
    · exact .inr hrest
    · cases hdone

theorem selectionFault_of_collectFields {selections : SelectionSet} {fault : MaskError}
    (h : collectFields system fragments type active selections = .error fault) : fault.IsSelectionFault := by
  induction active, selections using fragments.traversal with
  | nil active => simp [collectFields_nil] at h
  | field active alias? name arguments directives selections rest ihrest =>
    rcases collectFields_cons_eq_error h with hfirst | hrest
    · rw [firstFields] at hfirst
      split_ifs at hfirst
      cases hdefinition : system.field? type name with
      | none =>
        simp only [hdefinition, Except.error.injEq] at hfirst
        subst hfirst
        trivial
      | some definition => simp [hdefinition] at hfirst
    · exact ihrest hrest
  | spread active name directives rest ihbody ihrest =>
    rcases collectFields_cons_eq_error h with hfirst | hrest
    · rw [firstFields] at hfirst
      cases hfind : fragments.find? name with
      | none =>
        simp only [hfind, Except.error.injEq] at hfirst
        subst hfirst
        trivial
      | some fragment =>
        simp only [hfind] at hfirst
        split_ifs at hfirst with hsatisfies hactive
        · obtain rfl := Except.error.inj hfirst
          trivial
        · exact ihbody fragment hfind (by simpa using hactive) hfirst
    · exact ihrest hrest
  | inline active condition? directives selections rest ihbody ihrest =>
    rcases collectFields_cons_eq_error h with hfirst | hrest
    · rw [firstFields] at hfirst
      split_ifs at hfirst
      exact ihbody hfirst
    · exact ihrest hrest

/-- The type is not an object type, or something is wrong with the selections on it. -/
theorem fault_of_appliedFields {selections : SelectionSet} {fault : MaskError}
    (h : appliedFields system fragments type selections = .error fault) :
    (system.kind? type ≠ some .object ∧ fault = .unknownType type) ∨
      (system.kind? type = some .object ∧ fault.IsSelectionFault) := by
  unfold appliedFields at h
  split_ifs at h with hkind
  · exact .inr ⟨hkind, selectionFault_of_collectFields h⟩
  · exact .inl ⟨hkind, (Except.error.inj h).symm⟩

theorem exists_appliedAt {selections : SelectionSet} {fields : List AppliedField}
    (h : collectFields system fragments type active selections = .ok fields) {field : AppliedField}
    (hfield : field ∈ fields) : ∃ place, AppliedAt system fragments type selections place field :=
  (placed_collectFields h).mem_iff.mp hfield

end Collection

/-! Owners and their pets: a small schema with an interface, and a selection set on it. -/

namespace Pets

def fieldOf (name type : Name) : FieldDefinition := ⟨none, name, [], .named type false, []⟩

def typeOf (name : Name) (body : TypeBody) : SchemaDefinition := .type ⟨false, none, name, [], body⟩

def definitions : List SchemaDefinition :=
  [typeOf "Owner" (.object [] [fieldOf "id" "ID", fieldOf "pet" "Animal"]),
   typeOf "Animal" (.interface [] [fieldOf "name" "String"]),
   typeOf "Dog" (.object ["Animal"] [fieldOf "name" "String", fieldOf "breed" "String"]),
   typeOf "Cat" (.object ["Animal"] [fieldOf "name" "String"])]

def schema : Schema := .ofDefinitions definitions

/-- A field without selections. -/
def leaf (name : Name) : Selection := .field none name [] [] []

def fragments : Fragments := [("Named", ⟨"Animal", [], [leaf "name"]⟩)]

def selections : SelectionSet :=
  [leaf "id", .field none "pet" [] []
    [leaf "__typename", .spread "Named" [], .inline (some "Dog") [] [leaf "breed"]]]

def document : Document := ⟨.anonymous ⟨.query, [], [], selections⟩, fragments⟩

theorem acyclic : fragments.Acyclic := by
  refine Fragments.acyclic_of_rank (fun _ => 0) fun outer inner ⟨fragment, hfind, hspread⟩ => ?_
  obtain ⟨-, rfl⟩ := Prod.mk.inj (List.mem_singleton.mp (Fragments.mem_of_find? hfind))
  simp [leaf, SelectionSet.spreads, Selection.spreads] at hspread

end Pets

end QueryMask
