import QueryMask.Proofs.Occurrences
import QueryMask.Proofs.Typing
import Mathlib

/-! Fields with the types that they are selected on, before anything is known of the values: those of a
selection set, and those at a response path. -/

namespace QueryMask

/-- A selected field with its static parent type. Introspection lies outside the schema, and what is
selected below one of its fields has no parent type. -/
structure StaticField where
  parent? : Option Name
  key : Name
  name : Name
  arguments : List Argument
  selections : SelectionSet

namespace StaticField

def type? (system : TypeSystem) (field : StaticField) : Option TypeRef :=
  if field.name.isReserved then none
  else (field.parent?.bind fun parent => system.field? parent field.name).map (·.type)

def returns? (system : TypeSystem) (field : StaticField) : Option Name :=
  (field.type? system).map TypeRef.core

theorem returns?_of_parent?_none {system : TypeSystem} {field : StaticField}
    (h : field.parent? = none) : field.returns? system = none := by
  simp [returns?, type?, h]

end StaticField

/-- A field of the selections on a parent type, inside any fragments. -/
inductive SelectedIn (fragments : Fragments) : Option Name → SelectionSet → StaticField → Prop where
  | field {parent? alias? name arguments directives selections rest} :
      SelectedIn fragments parent? (.field alias? name arguments directives selections :: rest)
        ⟨parent?, responseKey alias? name, name, arguments, selections⟩
  | spread {parent? name directives fragment rest field} (hfind : fragments.find? name = some fragment)
      (hbody : SelectedIn fragments (parent?.map fun _ => fragment.condition) fragment.selections field) :
      SelectedIn fragments parent? (.spread name directives :: rest) field
  | inline {parent? condition? directives selections rest field}
      (hbody : SelectedIn fragments (parent?.map condition?.getD) selections field) :
      SelectedIn fragments parent? (.inline condition? directives selections :: rest) field
  | later {parent? first rest field} (hrest : SelectedIn fragments parent? rest field) :
      SelectedIn fragments parent? (first :: rest) field

/-- A field that answers to the last key of a path whose other keys lead to its selection set. -/
inductive OccursAt (system : TypeSystem) (fragments : Fragments) :
    Option Name → SelectionSet → List Name → StaticField → Prop where
  | last {parent? selections field} (hselected : SelectedIn fragments parent? selections field) :
      OccursAt system fragments parent? selections [field.key] field
  | deeper {parent? selections field keys occurrence}
      (hselected : SelectedIn fragments parent? selections field)
      (hbelow : OccursAt system fragments (field.returns? system) field.selections keys occurrence) :
      OccursAt system fragments parent? selections (field.key :: keys) occurrence

section SelectedIn

variable {fragments : Fragments} {parent? : Option Name} {field : StaticField}
  {directives : List Directive} {rest : SelectionSet}

theorem not_selectedIn_nil : ¬ SelectedIn fragments parent? [] field := nofun

theorem selectedIn_field_iff {alias? : Option Name} {name : Name} {arguments : List Argument}
    {selections : SelectionSet} :
    SelectedIn fragments parent? (.field alias? name arguments directives selections :: rest) field ↔
      field = ⟨parent?, responseKey alias? name, name, arguments, selections⟩ ∨
        SelectedIn fragments parent? rest field := by
  constructor
  · intro h
    cases h with
    | field => exact .inl rfl
    | later hrest => exact .inr hrest
  · rintro (rfl | hrest)
    · exact .field
    · exact .later hrest

theorem selectedIn_inline_iff {condition? : Option Name} {selections : SelectionSet} :
    SelectedIn fragments parent? (.inline condition? directives selections :: rest) field ↔
      SelectedIn fragments (parent?.map condition?.getD) selections field ∨
        SelectedIn fragments parent? rest field := by
  constructor
  · intro h
    cases h with
    | inline hbody => exact .inl hbody
    | later hrest => exact .inr hrest
  · rintro (hbody | hrest)
    · exact .inline hbody
    · exact .later hrest

theorem selectedIn_spread_iff {name : Name} :
    SelectedIn fragments parent? (.spread name directives :: rest) field ↔
      (∃ fragment, fragments.find? name = some fragment ∧
        SelectedIn fragments (parent?.map fun _ => fragment.condition) fragment.selections field) ∨
      SelectedIn fragments parent? rest field := by
  constructor
  · intro h
    cases h with
    | spread hfind hbody => exact .inl ⟨_, hfind, hbody⟩
    | later hrest => exact .inr hrest
  · rintro (⟨fragment, hfind, hbody⟩ | hrest)
    · exact .spread hfind hbody
    · exact .later hrest

/-- Where a parent type is missing it is missing inside the fragments as well. -/
theorem SelectedIn.parent?_eq_none {selections : SelectionSet}
    (h : SelectedIn fragments parent? selections field) (hnone : parent? = none) :
    field.parent? = none := by
  induction h with
  | field => exact hnone
  | spread _ _ ih => exact ih (by rw [hnone]; rfl)
  | inline _ ih => exact ih (by rw [hnone]; rfl)
  | later _ ih => exact ih hnone

end SelectedIn

section Occurrences

variable {system : TypeSystem} {fragments : Fragments} {selections below : SelectionSet}

theorem exists_selectedIn {key : Name} {active : List Name}
    (h : below ∈ occurrences fragments key active selections) (parent? : Option Name) :
    ∃ field, SelectedIn fragments parent? selections field ∧ field.key = key ∧
      field.selections = below := by
  induction active, selections using fragments.traversal generalizing parent? with
  | nil active => simp [occurrences_nil] at h
  | field active alias? name arguments directives selections rest ihrest =>
    rw [occurrences_field, List.mem_append] at h
    rcases h with hfirst | hlater
    · have hkey : responseKey alias? name = key := by
        by_contra hne
        simp [hne] at hfirst
      have hbelow : below = selections := by simpa [hkey] using hfirst
      exact ⟨_, .field, hkey, hbelow.symm⟩
    · obtain ⟨field, hselected, hfield⟩ := ihrest hlater parent?
      exact ⟨field, .later hselected, hfield⟩
  | spread active name directives rest ihbody ihrest =>
    have hlater : below ∈ occurrences fragments key active rest → ∃ field,
        SelectedIn fragments parent? (.spread name directives :: rest) field ∧ field.key = key ∧
          field.selections = below := by
      intro hlater
      obtain ⟨field, hselected, hfield⟩ := ihrest hlater parent?
      exact ⟨field, .later hselected, hfield⟩
    cases hfind : fragments.find? name with
    | none =>
      rw [occurrences_spread_of_unknown hfind] at h
      exact hlater h
    | some fragment =>
      rw [occurrences_spread_of_known hfind] at h
      split_ifs at h with hactive
      · exact hlater h
      · rcases List.mem_append.mp h with hbody | hrest
        · obtain ⟨field, hselected, hfield⟩ :=
            ihbody fragment hfind (by simpa using hactive) hbody (parent?.map fun _ => fragment.condition)
          exact ⟨field, .spread hfind hselected, hfield⟩
        · exact hlater hrest
  | inline active condition? directives selections rest ihbody ihrest =>
    rw [occurrences_inline, List.mem_append] at h
    rcases h with hbody | hlater
    · obtain ⟨field, hselected, hfield⟩ := ihbody hbody (parent?.map condition?.getD)
      exact ⟨field, .inline hselected, hfield⟩
    · obtain ⟨field, hselected, hfield⟩ := ihrest hlater parent?
      exact ⟨field, .later hselected, hfield⟩

/-- Every selection set that a path leads to lies below a field that occurs there. -/
theorem exists_occursAt (system : TypeSystem) {keys : List Name} (hkeys : keys ≠ [])
    {current found : List SelectionSet} (hfound : follow? fragments keys current = some found)
    (hbelow : below ∈ found) :
    ∃ set ∈ current, ∀ parent?, ∃ field,
      OccursAt system fragments parent? set keys field ∧ field.selections = below := by
  induction keys generalizing current with
  | nil => exact absurd rfl hkeys
  | cons key keys ih =>
    have hnext : follow? fragments keys (current.flatMap (occurrences fragments key [])) =
        some found := by
      rw [follow?] at hfound
      split at hfound
      · cases hfound
      · assumption
    -- the last key ends at a field, any other key leads on from the type that its field returns
    cases keys with
    | nil =>
      obtain rfl : current.flatMap (occurrences fragments key []) = found := Option.some.inj hnext
      obtain ⟨set, hset, hoccurs⟩ := List.mem_flatMap.mp hbelow
      refine ⟨set, hset, fun parent? => ?_⟩
      obtain ⟨field, hselected, rfl, hfield⟩ := exists_selectedIn hoccurs parent?
      exact ⟨field, .last hselected, hfield⟩
    | cons next keys =>
      obtain ⟨middle, hmiddle, hdeeper⟩ := ih (List.cons_ne_nil _ _) hnext
      obtain ⟨set, hset, hoccurs⟩ := List.mem_flatMap.mp hmiddle
      refine ⟨set, hset, fun parent? => ?_⟩
      obtain ⟨field, hselected, rfl, rfl⟩ := exists_selectedIn hoccurs parent?
      obtain ⟨occurrence, hbelow', hselections⟩ := hdeeper (field.returns? system)
      exact ⟨occurrence, .deeper hselected hbelow', hselections⟩

theorem not_occursAt_nil {parent? : Option Name} {field : StaticField} :
    ¬ OccursAt system fragments parent? selections [] field := nofun

theorem occursAt_cons_iff {parent? : Option Name} {key : Name} {keys : List Name} {field : StaticField} :
    OccursAt system fragments parent? selections (key :: keys) field ↔
      ∃ first, SelectedIn fragments parent? selections first ∧ first.key = key ∧
        (keys = [] ∧ field = first ∨
          OccursAt system fragments (first.returns? system) first.selections keys field) := by
  constructor
  · intro h
    cases h with
    | last hselected => exact ⟨_, hselected, rfl, .inl ⟨rfl, rfl⟩⟩
    | deeper hselected hbelow => exact ⟨_, hselected, rfl, .inr hbelow⟩
  · rintro ⟨first, hselected, rfl, ⟨rfl, rfl⟩ | hbelow⟩
    · exact .last hselected
    · exact .deeper hselected hbelow

theorem OccursAt.returns?_eq_none {parent? : Option Name} {keys : List Name} {field : StaticField}
    (h : OccursAt system fragments parent? selections keys field) (hnone : parent? = none) :
    field.returns? system = none := by
  induction h with
  | last hselected => exact StaticField.returns?_of_parent?_none (hselected.parent?_eq_none hnone)
  | deeper hselected _ ih =>
    exact ih (StaticField.returns?_of_parent?_none (hselected.parent?_eq_none hnone))

end Occurrences

section Validity

variable {system : TypeSystem} {fragments : Fragments} {parent type : Name} {selections : SelectionSet}
  {field : StaticField}

/-- What is selected below a field is valid at the type that the field returns. -/
theorem ValidAt.of_selectedIn (hvalid : ValidAt system fragments parent selections)
    (hselected : SelectedIn fragments (some parent) selections field)
    (hreturns : field.returns? system = some type) : ValidAt system fragments type field.selections := by
  induction hvalid with
  | nil => cases hselected
  | reserved hname _ ihrest =>
    cases hselected with
    | field => simp [StaticField.returns?, StaticField.type?, hname] at hreturns
    | later hrest => exact ihrest hrest
  | @field _ _ _ _ _ _ _ definition hfield hbelow _ _ ihrest =>
    cases hselected with
    | field =>
      have htype : definition.type.core = type := by
        simp only [StaticField.returns?, StaticField.type?, Option.bind_some, hfield] at hreturns
        split_ifs at hreturns
        · simp at hreturns
        · exact Option.some.inj hreturns
      exact htype ▸ hbelow
    | later hrest => exact ihrest hrest
  | spread hfind _ _ ihbody ihrest =>
    cases hselected with
    | spread hfound hbody =>
      obtain rfl := Option.some.inj (hfound.symm.trans hfind)
      exact ihbody hbody
    | later hrest => exact ihrest hrest
  | inline _ _ ihbody ihrest =>
    cases hselected with
    | inline hbody => exact ihbody hbody
    | later hrest => exact ihrest hrest

theorem OccursAt.validAt {keys : List Name}
    (h : OccursAt system fragments (some parent) selections keys field)
    (hvalid : ValidAt system fragments parent selections)
    (hreturns : field.returns? system = some type) : ValidAt system fragments type field.selections := by
  generalize hparent : some parent = parent? at h
  induction h generalizing parent with
  | last hselected =>
    subst hparent
    exact hvalid.of_selectedIn hselected hreturns
  | @deeper _ _ middle _ _ hselected hbelow ih =>
    subst hparent
    cases hmiddle : middle.returns? system with
    | none =>
      -- nothing below a field outside the schema has a type
      rw [hbelow.returns?_eq_none hmiddle] at hreturns
      cases hreturns
    | some middleType => exact ih (hvalid.of_selectedIn hselected hmiddle) hreturns hmiddle.symm

end Validity

end QueryMask
