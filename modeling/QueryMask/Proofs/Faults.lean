import QueryMask.Proofs.Collection
import Mathlib

/-! Faults of selections on an object type: undefined fields, undefined fragments and fragments that reach
themselves. The fields of a selection set are determined exactly if none of these applies, and otherwise the one
that stands first in the document is reported. -/

namespace QueryMask

section Inside

variable {fragments : Fragments} {enters : Option Name → Prop} {selections body : SelectionSet}
  {selection : Selection} {place : Place} {name : Name} {directives : List Directive}

theorem reached_inline_iff {index : Nat} {condition? : Option Name}
    (hget : selections[index]? = some (.inline condition? directives body)) (henters : enters condition?)
    (hplace : place ≠ []) :
    Reached fragments enters selections (index :: place) selection ↔
      Reached fragments enters body place selection := by
  refine ⟨fun h => ?_, .inline hget henters⟩
  cases h with
  | here => exact absurd rfl hplace
  | inline hget' _ hbody =>
    obtain ⟨-, -, rfl⟩ := Selection.inline.inj (Option.some.inj (hget.symm.trans hget'))
    exact hbody
  | spread hget' => exact absurd (hget.symm.trans hget') (by simp)

theorem reached_spread_iff {index : Nat} {fragment : Fragment}
    (hget : selections[index]? = some (.spread name directives))
    (hfind : fragments.find? name = some fragment) (henters : enters (some fragment.condition))
    (hplace : place ≠ []) :
    Reached fragments enters selections (index :: place) selection ↔
      Reached fragments enters fragment.selections place selection := by
  refine ⟨fun h => ?_, .spread hget hfind henters⟩
  cases h with
  | here => exact absurd rfl hplace
  | inline hget' => exact absurd (hget.symm.trans hget') (by simp)
  | spread hget' hfind' _ hbody =>
    obtain ⟨rfl, -⟩ := Selection.spread.inj (Option.some.inj (hget.symm.trans hget'))
    obtain rfl := Option.some.inj (hfind.symm.trans hfind')
    exact hbody

/-- What is reached behind the place of a spread is reached from its fragment. -/
theorem reached_append_iff {around : Place} {fragment : Fragment}
    (haround : Reached fragments enters selections around (.spread name directives))
    (hfind : fragments.find? name = some fragment) (henters : enters (some fragment.condition))
    (hplace : place ≠ []) :
    Reached fragments enters selections (around ++ place) selection ↔
      Reached fragments enters fragment.selections place selection := by
  generalize hitem : Selection.spread name directives = item at haround
  induction haround with
  | here hget =>
    subst hitem
    exact reached_spread_iff hget hfind henters hplace
  | inline hget hinline _ ih =>
    rw [List.cons_append, reached_inline_iff hget hinline (by simp [hplace])]
    exact ih hitem
  | spread hget hfound hspread _ ih =>
    rw [List.cons_append, reached_spread_iff hget hfound hspread (by simp [hplace])]
    exact ih hitem

/-- The place lies inside the fragment: it is an active one, or a spread of it stands around the place. -/
def EnteredAt (fragments : Fragments) (enters : Option Name → Prop) (active : List Name)
    (selections : SelectionSet) (place : Place) (name : Name) : Prop :=
  name ∈ active ∨ ∃ around inside directives, place = around ++ inside ∧ inside ≠ [] ∧
    Reached fragments enters selections around (.spread name directives)

variable {active : List Name} {rest : SelectionSet}

/-- No spread stands around a selection that is not inside another one. -/
theorem enteredAt_singleton {index : Nat} :
    EnteredAt fragments enters active selections [index] name ↔ name ∈ active := by
  refine or_iff_left ?_
  rintro ⟨around, inside, _, hplace, hinside, hreached⟩
  obtain ⟨_, around, rfl⟩ := List.exists_cons_of_ne_nil hreached.ne_nil
  simp_all

/-- Around a place inside a selection stand that selection and what stands around the place there. -/
theorem enteredAt_cons {index : Nat} :
    EnteredAt fragments enters active selections (index :: place) name ↔
      name ∈ active ∨ ∃ around inside directives, place = around ++ inside ∧ inside ≠ [] ∧
        Reached fragments enters selections (index :: around) (.spread name directives) := by
  refine or_congr_right ⟨?_, ?_⟩
  · rintro ⟨around, inside, directives, hplace, hinside, hreached⟩
    obtain ⟨head, around, rfl⟩ := List.exists_cons_of_ne_nil hreached.ne_nil
    obtain ⟨rfl, rfl⟩ := List.cons.inj hplace
    exact ⟨around, inside, directives, rfl, hinside, hreached⟩
  · rintro ⟨around, inside, directives, rfl, hinside, hreached⟩
    exact ⟨index :: around, inside, directives, rfl, hinside, hreached⟩

theorem enteredAt_cons_succ {first : Selection} {index : Nat} :
    EnteredAt fragments enters active (first :: rest) ((index + 1) :: place) =
      EnteredAt fragments enters active rest (index :: place) := by
  funext name
  simp only [enteredAt_cons, reached_cons_succ]

theorem enteredAt_inline_zero {condition? : Option Name} (henters : enters condition?) :
    EnteredAt fragments enters active (.inline condition? directives body :: rest) (0 :: place) =
      EnteredAt fragments enters active body place := by
  funext name
  simp only [enteredAt_cons, reached_inline_zero, reduceCtorEq, and_false, false_or, henters, true_and]
  rfl

/-- Places inside a spread lie inside its fragment as well. -/
theorem enteredAt_spread_zero {fragment : Fragment} (hfind : fragments.find? name = some fragment)
    (henters : enters (some fragment.condition)) (hplace : place ≠ []) :
    EnteredAt fragments enters active (.spread name directives :: rest) (0 :: place) =
      EnteredAt fragments enters (name :: active) fragment.selections place := by
  funext other
  rw [enteredAt_cons, EnteredAt, List.mem_cons, or_comm (a := other = name), or_assoc]
  refine propext (or_congr_right ⟨?_, ?_⟩)
  · rintro ⟨around, inside, others, hcut, hinside, hreached⟩
    rcases reached_spread_zero.mp hreached with ⟨-, hspread⟩ | ⟨found, hfound, -, hbody⟩
    · exact .inl (Selection.spread.inj hspread).1
    · obtain rfl := Option.some.inj (hfound.symm.trans hfind)
      exact .inr ⟨around, inside, others, hcut, hinside, hbody⟩
  · rintro (rfl | ⟨around, inside, others, hcut, hinside, hreached⟩)
    · exact ⟨[], place, directives, rfl, hplace, .here rfl⟩
    · exact ⟨around, inside, others, hcut, hinside,
        reached_spread_zero.mpr (.inr ⟨fragment, hfind, henters, hreached⟩)⟩

end Inside

/--
What is wrong with a selection itself on an object type: its field is not defined, its fragment is not defined,
or its fragment applies but is entered already.
-/
def Selection.HasFault (system : TypeSystem) (fragments : Fragments) (type : Name) (entered : Name → Prop)
    (fault : MaskError) : Selection → Prop
  | .field _ name _ _ _ =>
    name.isReserved = false ∧ system.field? type name = none ∧ fault = .unknownField type name
  | .spread name _ =>
    match fragments.find? name with
    | none => fault = .unknownFragment name
    | some fragment =>
      system.satisfies fragment.condition type = true ∧ entered name ∧ fault = .fragmentCycle name
  | .inline _ _ _ => False

section HasFault

variable {system : TypeSystem} {fragments : Fragments} {type name : Name} {entered : Name → Prop}
  {fault : MaskError} {directives : List Directive}

theorem hasFault_spread_of_unknown (hfind : fragments.find? name = none) :
    (Selection.spread name directives).HasFault system fragments type entered fault ↔
      fault = .unknownFragment name := by
  simp [Selection.HasFault, hfind]

theorem hasFault_spread_of_known {fragment : Fragment} (hfind : fragments.find? name = some fragment) :
    (Selection.spread name directives).HasFault system fragments type entered fault ↔
      system.satisfies fragment.condition type = true ∧ entered name ∧ fault = .fragmentCycle name := by
  simp [Selection.HasFault, hfind]

end HasFault

/-- A fault of selections inside the fragments `active`, at the place of the selection that has it. -/
def FaultAt (system : TypeSystem) (fragments : Fragments) (type : Name) (active : List Name)
    (selections : SelectionSet) (place : Place) (fault : MaskError) : Prop :=
  ∃ selection, Reached fragments (system.admits · type) selections place selection ∧
    selection.HasFault system fragments type
      (EnteredAt fragments (system.admits · type) active selections place) fault

/-- A result that fails with the fault at the first place, and succeeds if there is none. -/
def FirstFault {α : Type} (holds : Place → MaskError → Prop) : Except MaskError α → Prop
  | .ok _ => ∀ place fault, ¬ holds place fault
  | .error fault => ∃ place, holds place fault ∧ ∀ other found, holds other found → ¬ other < place

section FirstFault

variable {α : Type} {holds rest : Place → MaskError → Prop} {fault : MaskError}

theorem FirstFault.of_root (hroot : holds [] fault) :
    FirstFault holds (.error fault : Except MaskError α) :=
  ⟨[], hroot, fun _ _ _ => List.not_lt_nil _⟩

/-- The faults of the first selection stand in front of all faults of the others. -/
theorem FirstFault.append {front later : Except MaskError (List α)}
    (hfirst : FirstFault (fun place fault => holds (0 :: place) fault) front) (hrest : FirstFault rest later)
    (hroot : ∀ fault, ¬ rest [] fault) (hnil : ∀ fault, ¬ holds [] fault)
    (hsucc : ∀ index place fault, holds ((index + 1) :: place) fault ↔ rest (index :: place) fault) :
    FirstFault holds (front >>= fun first => later >>= fun others => pure (first ++ others)) := by
  cases front with
  | error fault =>
    obtain ⟨place, hplace, hbefore⟩ := hfirst
    refine ⟨0 :: place, hplace, fun other found hother hlt => ?_⟩
    rcases other with _ | ⟨_ | index, other⟩
    · exact hnil _ hother
    · exact hbefore other found hother (by simpa using hlt)
    · simp [List.cons_lt_cons_iff] at hlt
  | ok first =>
    cases later with
    | error fault =>
      obtain ⟨place, hplace, hbefore⟩ := hrest
      rcases place with _ | ⟨index, place⟩
      · exact absurd hplace (hroot fault)
      refine ⟨(index + 1) :: place, (hsucc _ _ _).mpr hplace, fun other found hother hlt => ?_⟩
      rcases other with _ | ⟨_ | otherIndex, other⟩
      · exact hnil _ hother
      · exact hfirst other found hother
      · refine hbefore _ found ((hsucc _ _ _).mp hother) ?_
        simpa [List.cons_lt_cons_iff] using hlt
    | ok others =>
      intro place fault hplace
      rcases place with _ | ⟨_ | index, place⟩
      · exact hnil _ hplace
      · exact hfirst place fault hplace
      · exact hrest _ fault ((hsucc _ _ _).mp hplace)

end FirstFault

section Faults

variable {system : TypeSystem} {fragments : Fragments} {type name : Name} {active : List Name}
  {selections body rest : SelectionSet} {place : Place} {fault : MaskError} {directives : List Directive}

theorem not_faultAt_root : ¬ FaultAt system fragments type active selections [] fault := by
  rintro ⟨_, hreached, -⟩
  exact hreached.ne_nil rfl

theorem faultAt_cons_succ {first : Selection} {index : Nat} :
    FaultAt system fragments type active (first :: rest) ((index + 1) :: place) fault ↔
      FaultAt system fragments type active rest (index :: place) fault := by
  simp only [FaultAt, reached_cons_succ, enteredAt_cons_succ]

theorem faultAt_field_zero {alias? : Option Name} {arguments : List Argument} {below : SelectionSet} :
    FaultAt system fragments type active (.field alias? name arguments directives below :: rest) (0 :: place)
        fault ↔
      place = [] ∧ name.isReserved = false ∧ system.field? type name = none ∧
        fault = .unknownField type name := by
  simp only [FaultAt, reached_field_zero, and_assoc, exists_and_left, exists_eq_left, Selection.HasFault]

theorem faultAt_inline_zero {condition? : Option Name} :
    FaultAt system fragments type active (.inline condition? directives body :: rest) (0 :: place) fault ↔
      system.admits condition? type = true ∧ FaultAt system fragments type active body place fault := by
  constructor
  · rintro ⟨selection, hreached, hfault⟩
    rcases reached_inline_zero.mp hreached with ⟨-, rfl⟩ | ⟨hadmits, hbody⟩
    · exact hfault.elim
    · rw [enteredAt_inline_zero hadmits] at hfault
      exact ⟨hadmits, selection, hbody, hfault⟩
  · rintro ⟨hadmits, selection, hbody, hfault⟩
    refine ⟨selection, reached_inline_zero.mpr (.inr ⟨hadmits, hbody⟩), ?_⟩
    rwa [enteredAt_inline_zero hadmits]

theorem faultAt_spread_of_unknown (hfind : fragments.find? name = none) :
    FaultAt system fragments type active (.spread name directives :: rest) (0 :: place) fault ↔
      place = [] ∧ fault = .unknownFragment name := by
  constructor
  · rintro ⟨selection, hreached, hfault⟩
    rcases reached_spread_zero.mp hreached with ⟨rfl, rfl⟩ | ⟨fragment, hfound, -⟩
    · exact ⟨rfl, (hasFault_spread_of_unknown hfind).mp hfault⟩
    · simp [hfind] at hfound
  · rintro ⟨rfl, rfl⟩
    exact ⟨_, .here rfl, (hasFault_spread_of_unknown hfind).mpr rfl⟩

/-- A spread is a fault itself if its fragment is active, and has the faults of the fragment. -/
theorem faultAt_spread_of_known {fragment : Fragment} (hfind : fragments.find? name = some fragment) :
    FaultAt system fragments type active (.spread name directives :: rest) (0 :: place) fault ↔
      system.satisfies fragment.condition type = true ∧
        ((place = [] ∧ name ∈ active ∧ fault = .fragmentCycle name) ∨
          FaultAt system fragments type (name :: active) fragment.selections place fault) := by
  constructor
  · rintro ⟨selection, hreached, hfault⟩
    rcases reached_spread_zero.mp hreached with ⟨rfl, rfl⟩ | ⟨found, hfound, hsatisfies, hbody⟩
    · rw [hasFault_spread_of_known hfind, enteredAt_singleton] at hfault
      exact ⟨hfault.1, .inl ⟨rfl, hfault.2⟩⟩
    · obtain rfl := Option.some.inj (hfound.symm.trans hfind)
      rw [enteredAt_spread_zero hfind hsatisfies hbody.ne_nil] at hfault
      exact ⟨hsatisfies, .inr ⟨selection, hbody, hfault⟩⟩
  · rintro ⟨hsatisfies, ⟨rfl, hactive, rfl⟩ | ⟨selection, hbody, hfault⟩⟩
    · refine ⟨_, .here rfl, (hasFault_spread_of_known hfind).mpr ⟨hsatisfies, ?_, rfl⟩⟩
      exact enteredAt_singleton.mpr hactive
    · have hadmits : system.admits (some fragment.condition) type = true := hsatisfies
      refine ⟨selection, reached_spread_zero.mpr (.inr ⟨fragment, hfind, hadmits, hbody⟩), ?_⟩
      rwa [enteredAt_spread_zero hfind hadmits hbody.ne_nil]

/-- The collection of fields stops at the first fault. -/
theorem firstFault_collectFields (active : List Name) (selections : SelectionSet) :
    FirstFault (FaultAt system fragments type active selections)
      (collectFields system fragments type active selections) := by
  induction active, selections using fragments.traversal with
  | nil active =>
    rw [collectFields_nil]
    rintro place fault ⟨_, hreached, -⟩
    exact not_reached_nil hreached
  | field active alias? name arguments directives selections rest ihrest =>
    rw [collectFields_cons]
    refine .append ?_ ihrest (fun _ => not_faultAt_root) (fun _ => not_faultAt_root)
      fun _ _ _ => faultAt_cons_succ
    simp only [faultAt_field_zero, firstFields]
    cases hreserved : name.isReserved with
    | true => simp [FirstFault]
    | false =>
      cases hdefinition : system.field? type name with
      | none => exact .of_root ⟨rfl, rfl, rfl, rfl⟩
      | some definition => simp [FirstFault]
  | spread active name directives rest ihbody ihrest =>
    rw [collectFields_cons]
    refine .append ?_ ihrest (fun _ => not_faultAt_root) (fun _ => not_faultAt_root)
      fun _ _ _ => faultAt_cons_succ
    rw [firstFields]
    cases hfind : fragments.find? name with
    | none =>
      simp only [faultAt_spread_of_unknown hfind]
      exact .of_root ⟨rfl, rfl⟩
    | some fragment =>
      simp only [faultAt_spread_of_known hfind]
      split_ifs with hsatisfies hactive
      · exact .of_root ⟨hsatisfies, .inl ⟨rfl, by simpa using hactive, rfl⟩⟩
      · have hnew : name ∉ active := by simpa using hactive
        simpa [hsatisfies, hnew] using ihbody fragment hfind (by simpa using hactive)
      · simp [FirstFault, hsatisfies]
  | inline active condition? directives selections rest ihbody ihrest =>
    rw [collectFields_cons]
    refine .append ?_ ihrest (fun _ => not_faultAt_root) (fun _ => not_faultAt_root)
      fun _ _ _ => faultAt_cons_succ
    simp only [faultAt_inline_zero, firstFields]
    split_ifs with hadmits
    · simpa [hadmits] using ihbody
    · simp [FirstFault, hadmits]

theorem FaultAt.unique {other : MaskError} (h : FaultAt system fragments type active selections place fault)
    (hother : FaultAt system fragments type active selections place other) : fault = other := by
  obtain ⟨selection, hreached, hfault⟩ := h
  obtain ⟨found, hfound, hsame⟩ := hother
  obtain rfl := hreached.unique hfound
  cases selection with
  | field alias? name arguments directives below => exact hfault.2.2.trans hsame.2.2.symm
  | spread name directives =>
    cases hfind : fragments.find? name with
    | none =>
      rw [hasFault_spread_of_unknown hfind] at hfault hsame
      exact hfault.trans hsame.symm
    | some fragment =>
      rw [hasFault_spread_of_known hfind] at hfault hsame
      exact hfault.2.2.trans hsame.2.2.symm
  | inline condition? directives body => exact hfault.elim

/--
Selections in which everything that applies to an object type is in order: the fields are defined, the fragments
are defined, and no fragment reaches itself.
-/
structure Fits (system : TypeSystem) (fragments : Fragments) (type : Name) (selections : SelectionSet) :
    Prop where
  fields : ∀ place alias? name arguments directives below, Reached fragments (system.admits · type) selections
    place (.field alias? name arguments directives below) → name.isReserved = false →
    system.field? type name ≠ none
  spreads : ∀ place name directives, Reached fragments (system.admits · type) selections place
    (.spread name directives) → fragments.find? name ≠ none
  acyclic : ∀ place name directives fragment, Reached fragments (system.admits · type) selections place
    (.spread name directives) → fragments.find? name = some fragment →
    system.satisfies fragment.condition type = true →
    ∀ inside others, ¬ Reached fragments (system.admits · type) fragment.selections inside (.spread name others)

theorem fits_iff : Fits system fragments type selections ↔
    ∀ place fault, ¬ FaultAt system fragments type [] selections place fault := by
  constructor
  · rintro h place fault ⟨selection, hreached, hfault⟩
    cases selection with
    | field alias? name arguments directives below =>
      exact h.fields place alias? name arguments directives below hreached hfault.1 hfault.2.1
    | spread name directives =>
      cases hfind : fragments.find? name with
      | none => exact h.spreads place name directives hreached hfind
      | some fragment =>
        rw [hasFault_spread_of_known hfind] at hfault
        obtain ⟨hsatisfies, hactive | ⟨around, inside, others, rfl, hinside, haround⟩, -⟩ := hfault
        · simp at hactive
        · have hbody := (reached_append_iff haround hfind hsatisfies hinside).mp hreached
          exact h.acyclic around name others fragment haround hfind hsatisfies inside directives hbody
    | inline condition? directives body => exact hfault
  · intro h
    constructor
    case fields =>
      intro place alias? name arguments directives below hreached hopen hundefined
      exact h place _ ⟨_, hreached, hopen, hundefined, rfl⟩
    case spreads =>
      intro place name directives hreached hundefined
      exact h place _ ⟨_, hreached, (hasFault_spread_of_unknown hundefined).mpr rfl⟩
    case acyclic =>
      intro place name directives fragment hreached hfind hsatisfies inside others hinside
      have hagain := (reached_append_iff hreached hfind hsatisfies hinside.ne_nil).mpr hinside
      have hentered : EnteredAt fragments (system.admits · type) [] selections (place ++ inside) name :=
        .inr ⟨place, inside, directives, rfl, hinside.ne_nil, hreached⟩
      exact h _ _ ⟨_, hagain, (hasFault_spread_of_known hfind).mpr ⟨hsatisfies, hentered, rfl⟩⟩

end Faults

/--
The fields that apply to a type are determined for all selections, also with cyclic and undefined fragments: not on
a type other than an object type; on an object type exactly if everything that applies to it is in order; and
otherwise the fault that stands first in the document, with its fragments unfolded, is the one that is reported.
-/
theorem appliedFields_faults (system : TypeSystem) (fragments : Fragments) (type : Name)
    (selections : SelectionSet) :
    (system.kind? type ≠ some .object →
      appliedFields system fragments type selections = .error (.unknownType type)) ∧
    (system.kind? type = some .object →
      ((∃ fields, appliedFields system fragments type selections = .ok fields) ↔
        Fits system fragments type selections) ∧
      ∀ fault, appliedFields system fragments type selections = .error fault ↔
        ∃ place, FaultAt system fragments type [] selections place fault ∧
          ∀ other found, FaultAt system fragments type [] selections other found → ¬ other < place) := by
  refine ⟨fun hkind => by rw [appliedFields, if_neg hkind], fun hkind => ?_⟩
  have hfirst : FirstFault (FaultAt system fragments type [] selections)
      (collectFields system fragments type [] selections) := firstFault_collectFields [] selections
  rw [appliedFields, if_pos hkind]
  cases hcollect : collectFields system fragments type [] selections with
  | ok fields =>
    rw [hcollect] at hfirst
    refine ⟨⟨fun _ => fits_iff.mpr hfirst, fun _ => ⟨fields, rfl⟩⟩, fun fault => ⟨nofun, ?_⟩⟩
    rintro ⟨place, hplace, -⟩
    exact absurd hplace (hfirst place fault)
  | error fault =>
    rw [hcollect] at hfirst
    obtain ⟨place, hplace, hbefore⟩ := hfirst
    refine ⟨⟨nofun, fun hfits => absurd hplace (fits_iff.mp hfits place fault)⟩, fun found => ⟨?_, ?_⟩⟩
    · intro hsame
      obtain rfl := Except.error.inj hsame
      exact ⟨place, hplace, hbefore⟩
    · rintro ⟨other, hother, hfirst⟩
      rcases lt_trichotomy place other with hlt | rfl | hlt
      · exact absurd hlt (hfirst place fault hplace)
      · rw [hplace.unique hother]
      · exact absurd hlt (hbefore other found hother)

/-! Owners in fragments that lead to one another, beside a fragment on dogs that is out of order. -/

namespace Circle

def fragments : Fragments :=
  [("Outer", ⟨"Owner", [], [Pets.leaf "id", .spread "Inner" []]⟩), ("Inner", ⟨"Owner", [], [.spread "Outer" []]⟩),
   ("Lost", ⟨"Dog", [], [Pets.leaf "weight", .spread "Nowhere" []]⟩)]

/-- The fault of the fragment on dogs does not count for owners, but the circle does. -/
theorem fault_of_outer :
    Pets.schema.typeSystem.kind? "Owner" = some .object ∧
      appliedFields Pets.schema.typeSystem fragments "Owner" [.spread "Lost" [], .spread "Outer" []] =
        .error (.fragmentCycle "Outer") ∧
      (∃ place, FaultAt Pets.schema.typeSystem fragments "Owner" [] [.spread "Lost" [], .spread "Outer" []] place
        (.fragmentCycle "Outer")) ∧
      ¬ Fits Pets.schema.typeSystem fragments "Owner" [.spread "Lost" [], .spread "Outer" []] ∧
      Fits Pets.schema.typeSystem fragments "Owner" [.spread "Lost" [], Pets.leaf "id", .spread "Lost" []] := by
  have hkind : Pets.schema.typeSystem.kind? "Owner" = some .object := by cbv
  have hcircle : appliedFields Pets.schema.typeSystem fragments "Owner" [.spread "Lost" [], .spread "Outer" []] =
      .error (.fragmentCycle "Outer") := by cbv
  have hother : appliedFields Pets.schema.typeSystem fragments "Owner"
      [.spread "Lost" [], Pets.leaf "id", .spread "Lost" []] =
      .ok [⟨"id", Pets.fieldOf "id" "ID", []⟩] := by cbv
  obtain ⟨hfits, hfault⟩ := (appliedFields_faults Pets.schema.typeSystem fragments "Owner" _).2 hkind
  obtain ⟨place, hplace, -⟩ := (hfault _).mp hcircle
  refine ⟨hkind, hcircle, ⟨place, hplace⟩, fun h => ?_, ?_⟩
  · obtain ⟨fields, hfields⟩ := hfits.mpr h
    cases hcircle.symm.trans hfields
  · exact ((appliedFields_faults _ fragments "Owner" _).2 hkind).1.mp ⟨_, hother⟩

end Circle

end QueryMask
