import QueryMask.Mask.Naming
import QueryMask.Proofs.Depth
import QueryMask.Proofs.Events
import QueryMask.Proofs.Visits
import Mathlib

/-! The questions that path building asks a naming: which fields they are about, in which order, what ends the
paths, and which questions are left out after a failure. -/

namespace QueryMask

section Events

variable (system : TypeSystem) (fragments : Fragments) (naming : FieldNaming)
  (discriminator? : Option (Name → Option String))

/-- The visit is on an object type, and the field at the place applies to it. -/
def Visit.Selects (visit : Visit) (place : Place) (field : AppliedField) : Prop :=
  system.kind? visit.type = some .object ∧
    AppliedAt system fragments visit.type visit.selections place field

/-- The second visit is made at this step of the first one, for a field that is not left out. -/
inductive Visit.OpensAt : Visit → Step → Visit → Prop where
  | object {outer place field segment} (hselects : outer.Selects system fragments place field)
      (hsegment : naming system outer.type field.definition = some segment)
      (hbelow : field.selections ≠ []) (hkind : system.kind? field.returnType = some .object) :
      OpensAt outer ⟨place, 1⟩ ⟨field.selections, field.returnType⟩
  | possible {outer place field segment kind discriminator index object text}
      (hselects : outer.Selects system fragments place field)
      (hsegment : naming system outer.type field.definition = some segment)
      (hbelow : field.selections ≠ []) (hkind : system.kind? field.returnType = some kind)
      (habstract : kind.isAbstract = true) (hdiscriminator : discriminator? = some discriminator)
      (hpossible : (system.possibleTypes field.returnType)[index]? = some object)
      (htext : discriminator object = some text) :
      OpensAt outer ⟨place, index + 1⟩ ⟨field.selections, object⟩

/--
What happens in a visit and where, if nothing stops it. Its selections can be at fault, which is noticed before
anything else. Each of its fields is asked about, and then its return type can turn out to be unknown, or else
other visits are made below it.
-/
inductive Visit.Meets : Visit → Trail → Event → Prop where
  | fault {visit fault} (h : appliedFields system fragments visit.type visit.selections = .error fault) :
      Meets visit [] (.failure fault)
  | question {visit place field} (hselects : visit.Selects system fragments place field) :
      Meets visit [⟨place, 0⟩] (.question visit.type field)
  | unknownType {visit place field segment} (hselects : visit.Selects system fragments place field)
      (hsegment : naming system visit.type field.definition = some segment)
      (hkind : system.kind? field.returnType = none) :
      Meets visit [⟨place, 1⟩] (.failure (.unknownType field.returnType))
  | inside {outer step inner rest event}
      (hopens : outer.OpensAt system fragments naming discriminator? step inner)
      (hmeets : Meets inner rest event) : Meets outer (step :: rest) event

end Events

section Visits

variable {system : TypeSystem} {fragments : Fragments} {naming : FieldNaming}
  {discriminator? : Option (Name → Option String)} {visit inner : Visit} {place : Place} {index : Nat}
  {field : AppliedField} {rest : Trail} {event : Event} {compute : SelectionSet → Name → Run (List Path)}

/-- The events of a visit are its fault, or belong to one of its fields. -/
theorem meets_iff {trail : Trail} :
    visit.Meets system fragments naming discriminator? trail event ↔
      (trail = [] ∧ ∃ fault, event = .failure fault ∧
        appliedFields system fragments visit.type visit.selections = .error fault) ∨
      ∃ place field, visit.Selects system fragments place field ∧
        (trail.head?.map Step.place = some place ∧
          visit.Meets system fragments naming discriminator? trail event) := by
  constructor
  · intro h
    cases h with
    | fault h => exact .inl ⟨rfl, _, rfl, h⟩
    | question hselects => exact .inr ⟨_, _, hselects, rfl, .question hselects⟩
    | unknownType hselects hsegment hkind =>
      exact .inr ⟨_, _, hselects, rfl, .unknownType hselects hsegment hkind⟩
    | inside hopens hmeets =>
      have hinside := Visit.Meets.inside hopens hmeets
      cases hopens with
      | object hselects => exact .inr ⟨_, _, hselects, rfl, hinside⟩
      | possible hselects => exact .inr ⟨_, _, hselects, rfl, hinside⟩
  · rintro (⟨rfl, fault, rfl, h⟩ | ⟨_, _, _, _, h⟩)
    · exact .fault h
    · exact h

theorem Visit.Selects.unique {other : AppliedField} (h : visit.Selects system fragments place field)
    (hother : visit.Selects system fragments place other) : field = other :=
  h.2.unique hother.2

/-- What can come after the question about a field. -/
theorem opensAt_iff (hselects : visit.Selects system fragments place field) {index : Nat} :
    visit.OpensAt system fragments naming discriminator? ⟨place, index + 1⟩ inner ↔
      ∃ segment, naming system visit.type field.definition = some segment ∧ field.selections ≠ [] ∧
        ∃ kind, system.kind? field.returnType = some kind ∧
          ((kind = .object ∧ index = 0 ∧ inner = ⟨field.selections, field.returnType⟩) ∨
            (kind.isAbstract = true ∧ ∃ discriminator object text, discriminator? = some discriminator ∧
              (system.possibleTypes field.returnType)[index]? = some object ∧
              discriminator object = some text ∧ inner = ⟨field.selections, object⟩)) := by
  constructor
  · intro h
    generalize hstep : (⟨place, index + 1⟩ : Step) = step at h
    cases h with
    | object hselects' hsegment hbelow hkind =>
      obtain ⟨rfl, hindex⟩ := Step.mk.inj hstep
      obtain rfl := hselects.unique hselects'
      exact ⟨_, hsegment, hbelow, _, hkind, .inl ⟨rfl, by omega, rfl⟩⟩
    | possible hselects' hsegment hbelow hkind habstract hdiscriminator hpossible htext =>
      obtain ⟨rfl, hindex⟩ := Step.mk.inj hstep
      obtain rfl := Nat.succ.inj hindex
      obtain rfl := hselects.unique hselects'
      exact ⟨_, hsegment, hbelow, _, hkind,
        .inr ⟨habstract, _, _, _, hdiscriminator, hpossible, htext, rfl⟩⟩
  · rintro ⟨segment, hsegment, hbelow, kind, hkind, ⟨rfl, rfl, rfl⟩ |
      ⟨habstract, discriminator, object, text, hdiscriminator, hpossible, htext, rfl⟩⟩
    · exact .object hselects hsegment hbelow hkind
    · exact .possible hselects hsegment hbelow hkind habstract hdiscriminator hpossible htext

/-- Below a field there is its unknown return type, or a visit. -/
theorem meets_below_iff (hselects : visit.Selects system fragments place field) :
    visit.Meets system fragments naming discriminator? (⟨place, index + 1⟩ :: rest) event ↔
      ((∃ segment, naming system visit.type field.definition = some segment) ∧
        system.kind? field.returnType = none ∧ index = 0 ∧ rest = [] ∧
          event = .failure (.unknownType field.returnType)) ∨
      ∃ inner, visit.OpensAt system fragments naming discriminator? ⟨place, index + 1⟩ inner ∧
        inner.Meets system fragments naming discriminator? rest event := by
  constructor
  · intro h
    generalize htrail : (⟨place, index + 1⟩ : Step) :: rest = trail at h
    cases h with
    | fault => cases htrail
    | question => cases htrail
    | unknownType hselects' hsegment hkind =>
      obtain ⟨hstep, rfl⟩ := List.cons.inj htrail
      obtain ⟨rfl, hindex⟩ := Step.mk.inj hstep
      obtain rfl := hselects.unique hselects'
      exact .inl ⟨⟨_, hsegment⟩, hkind, by omega, rfl, rfl⟩
    | inside hopens hmeets =>
      obtain ⟨rfl, rfl⟩ := List.cons.inj htrail
      exact .inr ⟨_, hopens, hmeets⟩
  · rintro (⟨⟨segment, hsegment⟩, hkind, rfl, rfl, rfl⟩ | ⟨inner, hopens, hmeets⟩)
    · exact .unknownType hselects hsegment hkind
    · exact .inside hopens hmeets

/-- The events of one field: the question about it, then what is below it. -/
theorem meets_at_iff (hselects : visit.Selects system fragments place field) {trail : Trail} :
    trail.head?.map Step.place = some place ∧ visit.Meets system fragments naming discriminator? trail event ↔
      (trail = [⟨place, 0⟩] ∧ event = .question visit.type field) ∨
      ∃ index rest, trail = ⟨place, index + 1⟩ :: rest ∧
        visit.Meets system fragments naming discriminator? (⟨place, index + 1⟩ :: rest) event := by
  constructor
  · rintro ⟨hplace, h⟩
    cases h with
    | fault => simp at hplace
    | question hselects' =>
      obtain rfl := Option.some.inj hplace
      obtain rfl := hselects.unique hselects'
      exact .inl ⟨rfl, rfl⟩
    | unknownType hselects' hsegment hkind =>
      obtain rfl := Option.some.inj hplace
      exact .inr ⟨0, [], rfl, .unknownType hselects' hsegment hkind⟩
    | inside hopens hmeets =>
      have hinside := Visit.Meets.inside hopens hmeets
      cases hopens with
      | object =>
        obtain rfl := Option.some.inj hplace
        exact .inr ⟨0, _, rfl, hinside⟩
      | possible =>
        obtain rfl := Option.some.inj hplace
        exact .inr ⟨_, _, rfl, hinside⟩
  · rintro (⟨rfl, rfl⟩ | ⟨index, rest, rfl, h⟩)
    · exact ⟨rfl, .question hselects⟩
    · exact ⟨rfl, h⟩

theorem AppliedField.isLeaf_iff (field : AppliedField) {kind : TypeKind}
    (hkind : system.kind? field.returnType = some kind) :
    field.IsLeaf system ↔ ¬ (kind.isComposite && !field.selections.isEmpty) = true := by
  rw [IsLeaf, hkind, Option.any_some]
  cases kind.isComposite <;> simp

/-- What is done about a field after the question. -/
def belowPaths (system : TypeSystem) (naming : FieldNaming) (discriminator? : Option (Name → Option String))
    (compute : SelectionSet → Name → Run (List Path)) (parent : Name) (field : AppliedField) :
    Run (List Path) :=
  match naming system parent field.definition with
  | none => pure []
  | some segment =>
    match system.kind? field.returnType with
    | none => .ofExcept (.error (.unknownType field.returnType))
    | some kind =>
      if field.IsLeaf system then pure []
      else subPaths system (.perType (some naming) discriminator?) compute parent field kind >>= fun below =>
        pure (below.map (Path.join segment))

theorem fieldPaths_eq (trail : Trail) (parent : Name) :
    fieldPaths system (.perType (some naming) discriminator?) compute parent field =
      Run.call (.naming parent field.definition.name) >>= fun _ =>
        belowPaths system naming discriminator? compute parent field >>= fun below =>
          pure ((Question.lastWord? system naming ⟨trail, parent, field⟩).toList ++ below) := by
  have hsegment : segment? system (.perType (some naming) discriminator?) parent field =
      Run.call (.naming parent field.definition.name) >>= fun _ =>
        pure (naming system parent field.definition) := rfl
  rw [fieldPaths, hsegment, bind_assoc]
  refine congrArg _ (funext fun _ => ?_)
  rw [pure_bind, belowPaths, Question.lastWord?]
  cases hanswer : naming system parent field.definition with
  | none => simp
  | some segment =>
    cases hkind : system.kind? field.returnType with
    | none => exact (Run.ofExcept_error_bind _ _).symm
    | some kind =>
      have hcond := field.isLeaf_iff hkind
      dsimp only
      by_cases hleaf : field.IsLeaf system
      · rw [if_neg (hcond.mp hleaf)]
        simp [hleaf]
      · rw [if_pos (not_not.mp (mt hcond.mpr hleaf))]
        simp [hleaf]

/-- Below a field of an abstract type its possible types are visited in order. -/
theorem exists_asks_variants (place : Place) {discriminator : Name → Option String} {below : SelectionSet}
    {objects : List Name} {compute : Name → Run (List Path)}
    (hcompute : ∀ object, ∃ asked, Asks system naming
      (Visit.Meets system fragments naming (some discriminator) ⟨below, object⟩) (compute object) asked) :
    ∃ asked, Asks system naming (fun trail event => ∃ index object text rest, objects[index]? = some object ∧
        discriminator object = some text ∧ trail = ⟨place, index + 1⟩ :: rest ∧
        Visit.Meets system fragments naming (some discriminator) ⟨below, object⟩ rest event)
      (Run.concatMap (variantPaths discriminator compute) objects) asked := by
  have heach : ∀ item ∈ objects.zipIdx, ∃ asked, Asks system naming (fun trail event => ∃ text rest,
      discriminator item.1 = some text ∧ trail = ⟨place, item.2 + 1⟩ :: rest ∧
        Visit.Meets system fragments naming (some discriminator) ⟨below, item.1⟩ rest event)
      (variantPaths discriminator compute item.1) asked := by
    rintro ⟨object, index⟩ -
    unfold variantPaths
    cases htext : discriminator object with
    | none => exact ⟨[], .nil (by simp)⟩
    | some text =>
      obtain ⟨asked, hasked⟩ := hcompute object
      exact ⟨_, ((hasked.join text).behind ⟨place, index + 1⟩).congr fun trail event => by simp⟩
  obtain ⟨asked, hasked⟩ := Asks.concatMap (pairwise_zipIdx objects) heach fun item next hlt => by
    rintro trail event trail' event' ⟨_, _, -, rfl, -⟩ ⟨_, _, -, rfl, -⟩
    exact List.cons_lt_cons_iff.mpr (.inl (.inr ⟨rfl, Nat.succ_lt_succ hlt⟩))
  rw [← Run.concatMap_map (variantPaths discriminator compute) Prod.fst, List.zipIdx_map_fst] at hasked
  refine ⟨asked, hasked.congr fun trail event => ?_⟩
  simp only [Prod.exists, List.mk_mem_zipIdx_iff_getElem?]
  constructor
  · rintro ⟨object, index, hobject, text, rest, htext, htrail, hmeets⟩
    exact ⟨index, object, text, rest, hobject, htext, htrail, hmeets⟩
  · rintro ⟨index, object, text, rest, hobject, htext, htrail, hmeets⟩
    exact ⟨object, index, hobject, text, rest, htext, htrail, hmeets⟩

/-- Below a field with selections come the events of the visits that it opens. -/
theorem exists_asks_subPaths {segment : String} {kind : TypeKind}
    (hselects : visit.Selects system fragments place field)
    (hsegment : naming system visit.type field.definition = some segment) (hbelow : field.selections ≠ [])
    (hkind : system.kind? field.returnType = some kind) (hcomposite : kind.isComposite = true)
    (hcompute : ∀ type, ∃ asked, Asks system naming
      (Visit.Meets system fragments naming discriminator? ⟨field.selections, type⟩)
      (compute field.selections type) asked) :
    ∃ asked, Asks system naming (fun trail event => ∃ index rest, trail = ⟨place, index + 1⟩ :: rest ∧
        ∃ inner, visit.OpensAt system fragments naming discriminator? ⟨place, index + 1⟩ inner ∧
          inner.Meets system fragments naming discriminator? rest event)
      (subPaths system (.perType (some naming) discriminator?) compute visit.type field kind) asked := by
  simp only [opensAt_iff hselects, hsegment, hkind]
  rw [subPaths_perType]
  split_ifs with hobject
  · obtain ⟨asked, hasked⟩ := hcompute field.returnType
    refine ⟨_, (hasked.behind ⟨place, 1⟩).congr fun trail event => ?_⟩
    simp [hbelow, hobject, TypeKind.isAbstract]
  · have habstract := TypeKind.isAbstract_of_composite hcomposite hobject
    cases hdiscriminator : discriminator? with
    | none => exact ⟨[], .nil (by simp [hobject])⟩
    | some discriminator =>
      subst hdiscriminator
      obtain ⟨asked, hasked⟩ := exists_asks_variants place hcompute
      refine ⟨asked, (hasked.expansion visit.type field.definition.name).congr fun trail event => ?_⟩
      simp only [false_and, false_or, Option.some.injEq, exists_eq_left', hbelow, hobject, habstract, ne_eq,
        not_false_eq_true, true_and]
      constructor
      · rintro ⟨index, object, text, rest, hpossible, htext, htrail, hmeets⟩
        exact ⟨index, rest, htrail, _, ⟨_, object, text, rfl, hpossible, htext, rfl⟩, hmeets⟩
      · rintro ⟨index, rest, htrail, _, ⟨_, object, text, rfl, hpossible, htext, rfl⟩, hmeets⟩
        exact ⟨index, object, text, rest, hpossible, htext, htrail, hmeets⟩

theorem Visit.OpensAt.not_leaf (hselects : visit.Selects system fragments place field)
    (h : visit.OpensAt system fragments naming discriminator? ⟨place, index + 1⟩ inner) :
    ¬ field.IsLeaf system := by
  obtain ⟨_, -, hbelow, kind, hkind, hopened⟩ := (opensAt_iff hselects).mp h
  have hcomposite : kind.isComposite = true := by
    rcases hopened with ⟨rfl, -⟩ | ⟨habstract, -⟩
    · rfl
    · exact (kind.composite_of_isAbstract habstract).1
  simp [AppliedField.IsLeaf, hbelow, hkind, hcomposite]

/-- After the question about a field come the events below it. -/
theorem exists_asks_belowPaths (hselects : visit.Selects system fragments place field)
    (hcompute : field.selections ≠ [] → ∀ type, ∃ asked, Asks system naming
      (Visit.Meets system fragments naming discriminator? ⟨field.selections, type⟩)
      (compute field.selections type) asked) :
    ∃ asked, Asks system naming (fun trail event => ∃ index rest, trail = ⟨place, index + 1⟩ :: rest ∧
        visit.Meets system fragments naming discriminator? (⟨place, index + 1⟩ :: rest) event)
      (belowPaths system naming discriminator? compute visit.type field) asked := by
  simp only [meets_below_iff hselects]
  unfold belowPaths
  cases hsegment : naming system visit.type field.definition with
  | none => exact ⟨[], .nil (by simp [opensAt_iff hselects, hsegment])⟩
  | some segment =>
    cases hkind : system.kind? field.returnType with
    | none =>
      refine ⟨[], .stop [⟨place, 1⟩] ⟨0, [], rfl, .inl ⟨⟨_, rfl⟩, rfl, rfl, rfl, rfl⟩⟩ ?_⟩
      simp [opensAt_iff hselects, hkind]
    | some kind =>
      simp only [reduceCtorEq, false_and, and_false, false_or]
      split_ifs with hleaf
      · refine ⟨[], .nil ?_⟩
        rintro trail event ⟨index, rest, -, inner, hopens, -⟩
        exact hopens.not_leaf hselects hleaf
      · obtain ⟨hcomposite, hbelow⟩ : kind.isComposite = true ∧ field.selections ≠ [] := by
          simpa [AppliedField.IsLeaf, hkind, and_comm] using hleaf
        obtain ⟨asked, hasked⟩ :=
          exists_asks_subPaths hselects hsegment hbelow hkind hcomposite (hcompute hbelow)
        exact ⟨asked, hasked.join segment⟩

/-- A field is asked about first, then come the events below it. -/
theorem exists_asks_fieldPaths (hselects : visit.Selects system fragments place field)
    (hcompute : field.selections ≠ [] → ∀ type, ∃ asked, Asks system naming
      (Visit.Meets system fragments naming discriminator? ⟨field.selections, type⟩)
      (compute field.selections type) asked) :
    ∃ asked, Asks system naming (fun trail event => trail.head?.map Step.place = some place ∧
        visit.Meets system fragments naming discriminator? trail event)
      (fieldPaths system (.perType (some naming) discriminator?) compute visit.type field) asked := by
  obtain ⟨asked, hasked⟩ := exists_asks_belowPaths hselects hcompute
  have hbefore : ∀ trail event, (∃ index rest, trail = ⟨place, index + 1⟩ :: rest ∧
      visit.Meets system fragments naming discriminator? (⟨place, index + 1⟩ :: rest) event) →
      [⟨place, 0⟩] < trail := by
    rintro trail event ⟨index, rest, rfl, -⟩
    exact List.cons_lt_cons_iff.mpr (.inl (.inr ⟨rfl, Nat.succ_pos index⟩))
  rw [fieldPaths_eq [⟨place, 0⟩]]
  exact ⟨_, (hasked.question ⟨[⟨place, 0⟩], visit.type, field⟩ hbefore).congr
    fun trail event => (meets_at_iff hselects).symm⟩

/-- The fields of a visit are taken in the order of their places, unless the visit is at fault. -/
theorem exists_asks_visit (visit : Visit)
    (hcompute : ∀ place field, visit.Selects system fragments place field → field.selections ≠ [] →
      ∀ type, ∃ asked, Asks system naming
        (Visit.Meets system fragments naming discriminator? ⟨field.selections, type⟩)
        (compute field.selections type) asked) :
    ∃ asked, Asks system naming (visit.Meets system fragments naming discriminator?)
      (Run.ofExcept (appliedFields system fragments visit.type visit.selections) >>=
        Run.concatMap (fieldPaths system (.perType (some naming) discriminator?) compute visit.type))
      asked := by
  cases hfields : appliedFields system fragments visit.type visit.selections with
  | error fault =>
    rw [Run.ofExcept_error_bind]
    exact ⟨[], .stop [] (.fault hfields) fun trail _ _ => List.not_lt_nil trail⟩
  | ok fields =>
    obtain ⟨hkind, hcollect⟩ := appliedFields_eq_ok_iff.mp hfields
    obtain ⟨placed, hordered, hmem, rfl⟩ := placed_collectFields hcollect
    have hselects : ∀ entry, entry ∈ placed ↔ visit.Selects system fragments entry.1 entry.2 := fun entry => by
      rw [hmem, Visit.Selects, and_iff_right hkind]
    have heach : ∀ entry ∈ placed, ∃ asked, Asks system naming (fun trail event =>
        trail.head?.map Step.place = some entry.1 ∧
          visit.Meets system fragments naming discriminator? trail event)
        (fieldPaths system (.perType (some naming) discriminator?) compute visit.type entry.2) asked :=
      fun entry hentry => exists_asks_fieldPaths ((hselects entry).mp hentry)
        (hcompute _ _ ((hselects entry).mp hentry))
    obtain ⟨asked, hasked⟩ := Asks.concatMap hordered heach fun ⟨place, field⟩ ⟨place', field'⟩ hlt => by
      rintro trail event trail' event' ⟨hplace, -⟩ ⟨hplace', -⟩
      cases trail with
      | nil => simp at hplace
      | cons step rest =>
        cases trail' with
        | nil => simp at hplace'
        | cons step' rest' =>
          obtain rfl := Option.some.inj hplace
          obtain rfl := Option.some.inj hplace'
          exact List.cons_lt_cons_iff.mpr (.inl (.inl hlt))
    rw [Run.ofExcept_ok_bind, Run.concatMap_map]
    refine ⟨asked, hasked.congr fun trail event => ?_⟩
    refine Iff.trans ?_ meets_iff.symm
    simp only [hfields, hselects, Prod.exists, reduceCtorEq, and_false, exists_false, false_or]

/-- Building paths asks the questions among its events. -/
theorem Fragments.Acyclic.exists_asks (hacyclic : fragments.Acyclic) (visit : Visit) :
    ∃ asked, Asks system naming (visit.Meets system fragments naming discriminator?)
      (pathsRun system fragments (.perType (some naming) discriminator?) visit.selections visit.type)
      asked := by
  obtain ⟨selections, type⟩ := visit
  induction selections using hacyclic.descent generalizing type with
  | step selections ih =>
    rw [hacyclic.pathsRun_eq]
    refine exists_asks_visit ⟨selections, type⟩ fun place field hselects hbelow type => ?_
    obtain ⟨-, ⟨_, _, _, hreached⟩, -⟩ := hselects
    exact ih _ _ _ _ _ _ _ hreached hbelow type

theorem Visit.OpensAt.unique {step : Step} {other : Visit}
    (h : visit.OpensAt system fragments naming discriminator? step inner)
    (hother : visit.OpensAt system fragments naming discriminator? step other) : inner = other := by
  cases h with
  | object hselects hsegment hbelow hkind =>
    obtain ⟨_, -, -, kind, hkind', ⟨-, -, rfl⟩ | ⟨habstract, -⟩⟩ := (opensAt_iff hselects).mp hother
    · rfl
    · obtain rfl := Option.some.inj (hkind.symm.trans hkind')
      cases habstract
  | possible hselects hsegment hbelow hkind habstract hdiscriminator hpossible htext =>
    obtain ⟨_, -, -, kind, hkind', ⟨rfl, -, -⟩ | ⟨-, _, object, _, -, hobject, -, rfl⟩⟩ :=
      (opensAt_iff hselects).mp hother
    · obtain rfl := Option.some.inj (hkind.symm.trans hkind')
      cases habstract
    · rw [Option.some.inj (hpossible.symm.trans hobject)]

theorem Visit.Meets.exists_opensAt {step : Step}
    (h : visit.Meets system fragments naming discriminator? (step :: rest) event) (hrest : rest ≠ []) :
    ∃ inner, visit.OpensAt system fragments naming discriminator? step inner ∧
      inner.Meets system fragments naming discriminator? rest event := by
  cases h with
  | question => exact absurd rfl hrest
  | unknownType => exact absurd rfl hrest
  | inside hopens hmeets => exact ⟨_, hopens, hmeets⟩

/-- Questions are about applied fields of object types. -/
theorem Visit.Meets.applied {trail : Trail} {parent : Name}
    (h : visit.Meets system fragments naming discriminator? trail (.question parent field)) :
    system.kind? parent = some .object ∧ field.name.isReserved = false ∧
      system.field? parent field.name = some field.definition := by
  generalize hevent : Event.question parent field = event at h
  induction h with
  | fault => cases hevent
  | question hselects =>
    obtain ⟨rfl, rfl⟩ := Event.question.inj hevent
    exact ⟨hselects.1, hselects.2.2⟩
  | unknownType => cases hevent
  | inside _ _ ih => exact ih hevent

/-- Something is only asked about below a field that has a segment and selections, and a type to go on with. -/
theorem Visit.Meets.under {front : Trail} {parent next : Name} {follower : AppliedField}
    (houter : visit.Meets system fragments naming discriminator? (front ++ [⟨place, 0⟩])
      (.question parent field))
    (hinner : visit.Meets system fragments naming discriminator? (front ++ ⟨place, index + 1⟩ :: rest)
      (.question next follower)) :
    naming system parent field.definition ≠ none ∧ field.selections ≠ [] ∧
      ∃ kind, system.kind? field.returnType = some kind ∧
        (kind = .object ∨ kind.isAbstract = true ∧ discriminator? ≠ none) := by
  induction front generalizing visit with
  | nil =>
    generalize htrail : ([] ++ [⟨place, 0⟩] : Trail) = trail at houter
    cases houter with
    | question hselects =>
      obtain ⟨hstep, -⟩ := List.cons.inj htrail
      obtain ⟨rfl, -⟩ := Step.mk.inj hstep
      rcases (meets_below_iff hselects).mp hinner with ⟨-, -, -, -, hevent⟩ | ⟨inner, hopens, -⟩
      · cases hevent
      · obtain ⟨segment, hsegment, hne, kind, hkind, hbelow⟩ := (opensAt_iff hselects).mp hopens
        refine ⟨by simp [hsegment], hne, kind, hkind, hbelow.imp And.left ?_⟩
        rintro ⟨habstract, discriminator, _, _, hdiscriminator, -⟩
        exact ⟨habstract, by simp [hdiscriminator]⟩
    | inside hopens hmeets =>
      obtain ⟨rfl, rfl⟩ := List.cons.inj htrail
      cases hmeets
  | cons step front ih =>
    obtain ⟨middle, hopens, houter⟩ := houter.exists_opensAt (by simp)
    obtain ⟨other, hopens', hinner⟩ := hinner.exists_opensAt (by simp)
    obtain rfl := hopens.unique hopens'
    exact ih houter hinner

end Visits

/--
Which questions a naming is asked, and in which order. The record of the questions is that of the traversal of
all visits: each applied field of each visit on an object type is asked about once, a field before the fields
below it, and otherwise in the order of the document and of the possible types. Below a field that is left out,
and below an abstract field that is not expanded, nothing is asked. If there is no failure, the paths end with
the answers to the questions about leaves, in turn. Otherwise all questions before the first failure are asked;
a visit at fault asks nothing.
-/
theorem Fragments.Acyclic.namings_ordered {fragments : Fragments} (hacyclic : fragments.Acyclic)
    (system : TypeSystem) (naming : FieldNaming) (discriminator? : Option (Name → Option String))
    (selections : SelectionSet) (type : Name) :
    ∃ asked : List Question,
      Asks system naming (Visit.Meets system fragments naming discriminator? ⟨selections, type⟩)
        (pathsRun system fragments (.perType (some naming) discriminator?) selections type) asked ∧
      (∀ question ∈ asked, system.kind? question.parent = some .object ∧
        question.field.name.isReserved = false ∧
        system.field? question.parent question.field.name = some question.field.definition) ∧
      (asked.Pairwise fun earlier later => ¬ earlier.Under later) ∧
      (∀ outer ∈ asked, ∀ inner ∈ asked, inner.Under outer →
        naming system outer.parent outer.field.definition ≠ none ∧ outer.field.selections ≠ [] ∧
          ∃ kind, system.kind? outer.field.returnType = some kind ∧
            (kind = .object ∨ kind.isAbstract = true ∧ discriminator? ≠ none)) ∧
      ∀ trail fault, StopsAt (Visit.Meets system fragments naming discriminator? ⟨selections, type⟩) asked
        trail fault → ∀ question ∈ asked, ¬ trail <+: question.trail := by
  obtain ⟨asked, hasked⟩ := hacyclic.exists_asks ⟨selections, type⟩
  refine ⟨asked, hasked, fun question hmem => (hasked.happens hmem).applied, ?_, ?_,
    fun trail fault hstop question hmem => hstop.not_behind hmem⟩
  · refine hasked.ordered.imp fun {earlier later} hlt hunder => ?_
    have hbefore := Question.Under.lt hunder
    exact asymm hlt hbefore
  · rintro outer houter inner hinner ⟨front, place, index, rest, htrail, htrail'⟩
    have houter := hasked.happens houter
    have hinner := hasked.happens hinner
    rw [htrail] at houter
    rw [htrail'] at hinner
    exact houter.under hinner

/-- Names of dogs become titles, and those of other animals are left out. -/
def Pets.titles : FieldNaming := .byTable [("Dog.name", some "title"), ("*.name", none)]

theorem Pets.namings_of_owner :
    (pathsRun Pets.schema.typeSystem Pets.fragments (.perType (some Pets.titles) (some some)) Pets.selections
        "Owner").outcome = .ok ["id", "pet.Dog.title", "pet.Dog.breed"] ∧
      namings (pathsRun Pets.schema.typeSystem Pets.fragments (.perType (some Pets.titles) (some some))
        Pets.selections "Owner").calls =
          [("Owner", "id"), ("Owner", "pet"), ("Dog", "name"), ("Dog", "breed"), ("Cat", "name")] ∧
      ∃ asked : List Question,
        Asks Pets.schema.typeSystem Pets.titles (Visit.Meets Pets.schema.typeSystem Pets.fragments Pets.titles
          (some some) ⟨Pets.selections, "Owner"⟩) (pathsRun Pets.schema.typeSystem Pets.fragments
            (.perType (some Pets.titles) (some some)) Pets.selections "Owner") asked := by
  refine ⟨by cbv, by cbv, ?_⟩
  obtain ⟨asked, hasked, -⟩ := Pets.acyclic.namings_ordered Pets.schema.typeSystem Pets.titles (some some)
    Pets.selections "Owner"
  exact ⟨asked, hasked⟩

end QueryMask
