import QueryMask.Mask.Expansion
import QueryMask.Mask.SelectedPaths
import QueryMask.Proofs.Runs

/-! What one applied field contributes, and how it depends on the paths of the selections below it. -/

namespace QueryMask

theorem TypeKind.composite_of_isAbstract (kind : TypeKind) (h : kind.isAbstract = true) :
    kind.isComposite = true ∧ kind ≠ .object := by
  cases kind <;> simp_all [isAbstract, isComposite]

theorem TypeKind.isAbstract_of_composite {kind : TypeKind} (h : kind.isComposite = true)
    (hobject : kind ≠ .object) : kind.isAbstract = true := by
  cases kind <;> simp_all [isAbstract, isComposite]

/-- Policies that expand nothing, or expand every possible type under its discriminator. -/
def Policy.perType (naming? : Option FieldNaming) (discriminator? : Option (Name → Option String)) :
    Policy :=
  ⟨naming?, discriminator?.map AbstractExpansion.eachPossible⟩

/-- The segment of a field of `parent`, if the naming does not leave the field out. -/
def segmentOf (system : TypeSystem) (naming? : Option FieldNaming) (parent : Name)
    (field : AppliedField) : Option String :=
  naming?.elim (some field.name) fun naming => naming system parent field.definition

theorem outcome_segment? (system : TypeSystem) (policy : Policy) (parent : Name) (field : AppliedField) :
    (segment? system policy parent field).outcome =
      .ok (segmentOf system policy.naming? parent field) := by
  unfold segment? segmentOf
  cases policy.naming? <;> rfl

/-- The paths of one possible type under its discriminator; a type without one is left out. -/
def variantPaths (discriminator : Name → Option String) (compute : Name → Run (List Path))
    (type : Name) : Run (List Path) :=
  match discriminator type with
  | none => pure []
  | some segment => compute type >>= fun below => pure (below.map (Path.join segment))

private theorem underSegment_eq_bind (run : Run (List Path)) (segment : String) :
    (⟨run.calls, AbstractExpansion.underSegment segment run.outcome⟩ : Run (List Path)) =
      run >>= fun below => pure (below.map (Path.join segment)) := by
  cases h : run.outcome with
  | ok below => rw [Run.bind_eq_of_ok _ h]; simp [AbstractExpansion.underSegment, Except.map]
  | error error => rw [Run.bind_eq_of_error _ h]; rfl

/-- Every possible type is asked about once, in order. -/
theorem run_eachPossible (discriminator : Name → Option String) (field : AbstractField)
    (compute : Name → Run (List Path)) :
    (AbstractExpansion.eachPossible discriminator field).run compute =
      Run.concatMap (variantPaths discriminator compute) field.possibleTypes := by
  rw [AbstractExpansion.eachPossible, Expansion.run_forEach]
  induction field.possibleTypes with
  | nil => rfl
  | cons type rest ih =>
    rw [Run.concatMap_cons, ← ih, variantPaths]
    cases hdisc : discriminator type with
    | none => simp [hdisc]
    | some segment =>
      dsimp only
      rw [← underSegment_eq_bind]
      simp [hdisc, Run.concatMap_cons]

section FieldPaths

variable {system : TypeSystem} {policy : Policy} {naming? : Option FieldNaming}
  {discriminator? : Option (Name → Option String)} {parent : Name} {field : AppliedField}
  {compute other : SelectionSet → Name → Run (List Path)}

/-- Only the selections of the field are computed, and only if there are any. -/
theorem fieldPaths_congr
    (h : field.selections ≠ [] → compute field.selections = other field.selections) :
    fieldPaths system policy compute parent field = fieldPaths system policy other parent field := by
  by_cases hleaf : field.selections = []
  · simp [fieldPaths, hleaf]
  · unfold fieldPaths subPaths
    rw [h hleaf]

theorem subPaths_perType {kind : TypeKind} :
    subPaths system (.perType naming? discriminator?) compute parent field kind =
      if kind = .object then compute field.selections field.returnType
      else discriminator?.elim (pure []) fun discriminator =>
        Run.call (.expansion parent field.definition.name) >>= fun _ =>
          Run.concatMap (variantPaths discriminator (compute field.selections))
            (system.possibleTypes field.returnType) := by
  unfold subPaths Policy.perType
  cases discriminator? with
  | none => rfl
  | some discriminator => simp only [Option.map_some, run_eachPossible]; rfl

theorem variantPaths_eq_of_ends {discriminator : Name → Option String} {type : Name}
    {compute other : Name → Run (List Path)}
    (hbelow : (compute type).Ends → other type = compute type)
    (h : (variantPaths discriminator compute type).Ends) :
    variantPaths discriminator other type = variantPaths discriminator compute type := by
  unfold variantPaths at h ⊢
  cases hdisc : discriminator type with
  | none => rfl
  | some segment =>
    simp only [hdisc] at h
    exact Run.bind_eq_of_ends h hbelow fun _ _ => rfl

theorem subPaths_eq_of_ends {kind : TypeKind}
    (hbelow : ∀ type, (compute field.selections type).Ends →
      other field.selections type = compute field.selections type)
    (h : (subPaths system (.perType naming? discriminator?) compute parent field kind).Ends) :
    subPaths system (.perType naming? discriminator?) other parent field kind =
      subPaths system (.perType naming? discriminator?) compute parent field kind := by
  rw [subPaths_perType] at h ⊢
  rw [subPaths_perType]
  split_ifs at h ⊢
  · exact hbelow _ h
  · cases discriminator? with
    | none => rfl
    | some discriminator =>
      refine Run.bind_eq_of_ends h (fun _ => rfl) fun _ htypes => ?_
      exact Run.concatMap_eq_of_ends (fun type _ => variantPaths_eq_of_ends (hbelow type)) htypes

/-- A contribution that ends is the same when the paths below change only where they do not end. -/
theorem fieldPaths_eq_of_ends
    (hbelow : ∀ type, (compute field.selections type).Ends →
      other field.selections type = compute field.selections type)
    (h : (fieldPaths system (.perType naming? discriminator?) compute parent field).Ends) :
    fieldPaths system (.perType naming? discriminator?) other parent field =
      fieldPaths system (.perType naming? discriminator?) compute parent field := by
  refine Run.bind_eq_of_ends h (fun _ => rfl) fun segment? hsegment => ?_
  cases segment? with
  | none => rfl
  | some segment =>
    cases hkind : system.kind? field.returnType with
    | none => rfl
    | some kind =>
      simp only [hkind] at hsegment ⊢
      split_ifs at hsegment ⊢
      · exact Run.bind_eq_of_ends hsegment (subPaths_eq_of_ends hbelow) fun _ _ => rfl
      · rfl

/-- A field that is left out contributes nothing, a leaf its segment, others the paths below it. -/
theorem outcome_fieldPaths_eq_ok_iff {paths : List Path} :
    (fieldPaths system policy compute parent field).outcome = .ok paths ↔
      (segmentOf system policy.naming? parent field = none ∧ paths = []) ∨
      ∃ segment kind, segmentOf system policy.naming? parent field = some segment ∧
        system.kind? field.returnType = some kind ∧
        (((kind.isComposite = false ∨ field.selections = []) ∧ paths = [segment]) ∨
          (kind.isComposite = true ∧ field.selections ≠ [] ∧
            ∃ below, (subPaths system policy compute parent field kind).outcome = .ok below ∧
              paths = below.map (Path.join segment))) := by
  unfold fieldPaths
  rw [Run.bind_eq_of_ok _ (outcome_segment? system policy parent field)]
  cases segmentOf system policy.naming? parent field with
  | none => simp
  | some segment =>
    cases hkind : system.kind? field.returnType with
    | none => simp
    | some kind =>
      by_cases hbelow : kind.isComposite = true ∧ field.selections ≠ []
      · have hcond : (kind.isComposite && !field.selections.isEmpty) = true := by simpa using hbelow
        simp only [hcond, if_true, Run.outcome_bind_pure_eq_ok_iff]
        simp [hbelow]
      · have hcond : (kind.isComposite && !field.selections.isEmpty) = false := by
          simpa [or_iff_not_imp_left] using hbelow
        have hleaf : kind.isComposite = false ∨ field.selections = [] := by
          simpa [or_iff_not_imp_left] using hbelow
        simp only [hcond, Bool.false_eq_true, if_false]
        constructor
        · intro h
          obtain rfl : [segment] = paths := by simpa using h
          exact .inr ⟨segment, kind, rfl, rfl, .inl ⟨hleaf, rfl⟩⟩
        · rintro (⟨h, -⟩ | ⟨_, _, hsegment, hkind', ⟨-, rfl⟩ | ⟨hcomposite, hselections, -⟩⟩)
          · simp at h
          · rw [Option.some.inj hsegment, Run.outcome_pure]
          · exact absurd ⟨Option.some.inj hkind' ▸ hcomposite, hselections⟩ hbelow

theorem outcome_fieldPaths_of_left_out (hout : segmentOf system policy.naming? parent field = none) :
    (fieldPaths system policy compute parent field).outcome = .ok [] :=
  outcome_fieldPaths_eq_ok_iff.mpr (.inl ⟨hout, rfl⟩)

/-- A field with selections on a composite type contributes what is below it, under its segment. -/
theorem outcome_fieldPaths_of_composite {segment : String} {kind : TypeKind}
    (hsegment : segmentOf system policy.naming? parent field = some segment)
    (hkind : system.kind? field.returnType = some kind) (hcomposite : kind.isComposite = true)
    (hsome : field.selections ≠ []) :
    (fieldPaths system policy compute parent field).outcome =
      (subPaths system policy compute parent field kind >>= fun found =>
        pure (found.map (Path.join segment))).outcome := by
  unfold fieldPaths
  rw [Run.bind_eq_of_ok _ (outcome_segment? system policy parent field), hsegment]
  simp [hkind, hcomposite, hsome]

end FieldPaths

section Yields

variable {system other : TypeSystem} {naming? namingOther? : Option FieldNaming}
  {discriminator? discriminatorOther? : Option (Name → Option String)} {parent : Name}
  {field fieldOther : AppliedField} {compute computeOther : SelectionSet → Name → Run (List Path)}
  {rel : List Path → List Path → Prop}

/-- The paths of all possible types under their discriminators, if there are discriminators. -/
def expandedPaths (system : TypeSystem) (discriminator? : Option (Name → Option String))
    (compute : Name → Run (List Path)) (type : Name) : Run (List Path) :=
  discriminator?.elim (pure []) fun discriminator =>
    Run.concatMap (variantPaths discriminator compute) (system.possibleTypes type)

theorem outcome_subPaths_perType {kind : TypeKind} :
    (subPaths system (.perType naming? discriminator?) compute parent field kind).outcome =
      if kind = .object then (compute field.selections field.returnType).outcome
      else (expandedPaths system discriminator? (compute field.selections) field.returnType).outcome := by
  rw [subPaths_perType]
  split_ifs
  · rfl
  · cases discriminator? with
    | none => rfl
    | some discriminator =>
      rw [Option.elim_some, Run.bind_eq_of_ok _ rfl]
      rfl

theorem variantPaths_yields (hrel : Run.Congruent rel) {discriminator : Name → Option String} {type : Name}
    {compute computeOther : Name → Run (List Path)}
    (hbelow : (compute type).Yields rel (computeOther type)) :
    (variantPaths discriminator compute type).Yields rel
      (variantPaths discriminator computeOther type) := by
  unfold variantPaths
  cases discriminator type with
  | none => exact hrel.yields_refl _
  | some segment => exact hbelow.bind_map hrel (Path.join segment)

theorem subPaths_yields {kind : TypeKind} (hreturn : field.returnType = fieldOther.returnType)
    (hobject : (compute field.selections field.returnType).Yields rel
      (computeOther fieldOther.selections field.returnType))
    (hexpanded : (expandedPaths system discriminator? (compute field.selections) field.returnType).Yields rel
      (expandedPaths other discriminatorOther? (computeOther fieldOther.selections) field.returnType)) :
    (subPaths system (.perType naming? discriminator?) compute parent field kind).Yields rel
      (subPaths other (.perType namingOther? discriminatorOther?) computeOther parent fieldOther kind) := by
  unfold Run.Yields
  rw [outcome_subPaths_perType, outcome_subPaths_perType, ← hreturn]
  split_ifs
  · exact hobject
  · exact hexpanded

/-- Fields with the same segment contribute related paths if the paths below them are related. -/
theorem fieldPaths_yields (hrel : Run.Congruent rel)
    (hsegment : segmentOf other namingOther? parent fieldOther = segmentOf system naming? parent field)
    (hkind : ∀ kind, system.kind? field.returnType = some kind →
      other.kind? fieldOther.returnType = some kind)
    (hleaf : fieldOther.selections = [] ↔ field.selections = [])
    (hbelow : ∀ kind, system.kind? field.returnType = some kind →
      (subPaths system (.perType naming? discriminator?) compute parent field kind).Yields rel
        (subPaths other (.perType namingOther? discriminatorOther?) computeOther parent fieldOther kind)) :
    (fieldPaths system (.perType naming? discriminator?) compute parent field).Yields rel
      (fieldPaths other (.perType namingOther? discriminatorOther?) computeOther parent fieldOther) := by
  intro paths hpaths
  rcases outcome_fieldPaths_eq_ok_iff.mp hpaths with ⟨hout, rfl⟩ |
    ⟨segment, kind, hsome, hknown, hend | ⟨hcomposite, hne, below, hrun, rfl⟩⟩
  · refine ⟨[], outcome_fieldPaths_eq_ok_iff.mpr (.inl ⟨?_, rfl⟩), hrel.refl []⟩
    exact hsegment.trans hout
  · refine ⟨paths, outcome_fieldPaths_eq_ok_iff.mpr (.inr ?_), hrel.refl paths⟩
    exact ⟨segment, kind, hsegment.trans hsome, hkind kind hknown,
      .inl ⟨hend.1.imp_right hleaf.mpr, hend.2⟩⟩
  · obtain ⟨found, hfound, hrelated⟩ := hbelow kind hknown below hrun
    refine ⟨found.map (Path.join segment), outcome_fieldPaths_eq_ok_iff.mpr (.inr ?_),
      hrel.map _ hrelated⟩
    exact ⟨segment, kind, hsegment.trans hsome, hkind kind hknown,
      .inr ⟨hcomposite, mt hleaf.mp hne, found, hfound, rfl⟩⟩

end Yields

end QueryMask
