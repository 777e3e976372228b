import QueryMask.Proofs.Collection
import QueryMask.Proofs.Occurrences
import Mathlib

/-! The two traversals of fragments, with one stack of active fragments and one list of findings that they change
as they go. They leave the stack as it was, and only add to the list; what is on the stack only matters where a
fragment is about to be entered that is on it. -/

namespace QueryMask

/-- A traversal under way: the fragments that are entered and not yet left, the innermost last, and what is found. -/
structure Progress (α : Type) where
  active : List Name
  found : List α

namespace Progress

variable {α : Type}

def add (progress : Progress α) (items : List α) : Progress α :=
  { progress with found := progress.found ++ items }

def enter (progress : Progress α) (name : Name) : Progress α :=
  { progress with active := progress.active ++ [name] }

def leave (progress : Progress α) : Progress α :=
  { progress with active := progress.active.dropLast }

/-- The progress when a traversal that finds the items is over, if it does not fail. -/
def finish (progress : Progress α) (outcome : Except MaskError (List α)) :
    ExceptT MaskError Option (Progress α) :=
  some (outcome.map progress.add)

theorem add_nil (progress : Progress α) : progress.add [] = progress := by
  simp [add]

theorem add_add (progress : Progress α) (items later : List α) :
    (progress.add items).add later = progress.add (items ++ later) := by
  simp [add]

theorem leave_add_enter (progress : Progress α) (name : Name) (items : List α) :
    ((progress.enter name).add items).leave = progress.add items := by
  simp [add, enter, leave]

theorem finish_bind {progress : Progress α} {first later : Except MaskError (List α)}
    {next : Progress α → ExceptT MaskError Option (Progress α)}
    (h : ∀ items, next (progress.add items) = (progress.add items).finish later) :
    progress.finish first >>= next =
      progress.finish (first >>= fun front => later >>= fun rest => pure (front ++ rest)) := by
  cases first with
  | error fault => rfl
  | ok front =>
    refine (h front).trans ?_
    cases later with
    | error fault => rfl
    | ok rest => exact congrArg (fun joined => some (Except.ok joined)) (progress.add_add front rest)

/-- A fragment that is entered and left again leaves no trace but what is found in it. -/
theorem finish_enter_bind {progress : Progress α} {name : Name} {outcome : Except MaskError (List α)}
    {next : Progress α → ExceptT MaskError Option (Progress α)} :
    ((progress.enter name).finish outcome >>= fun inside => next inside.leave) = progress.finish outcome >>= next := by
  cases outcome with
  | error fault => rfl
  | ok items => exact congrArg next (progress.leave_add_enter name items)

end Progress

/--
Collects the fields that apply to an object type, selection by selection; a failure is final. The rest is traversed
with the stack that a fragment leaves behind, so what ends the recursion is a bound on the fragments that are entered
inside one another. A bound that does not suffice leaves no outcome, not even a failure.
-/
def collectFieldsOnto (system : TypeSystem) (fragments : Fragments) (type : Name) :
    Nat → SelectionSet → Progress AppliedField → ExceptT MaskError Option (Progress AppliedField)
  | _, [], progress => return progress
  | depth, .field _ name _ _ selections :: rest, progress =>
    if name.isReserved then collectFieldsOnto system fragments type depth rest progress
    else match system.field? type name with
      | none => throw (.unknownField type name)
      | some definition =>
        collectFieldsOnto system fragments type depth rest (progress.add [⟨name, definition, selections⟩])
  | depth, .spread name _ :: rest, progress =>
    match fragments.find? name with
    | none => throw (.unknownFragment name)
    | some fragment =>
      if system.satisfies fragment.condition type then
        if progress.active.contains name then throw (.fragmentCycle name)
        else match depth with
          | 0 => none
          | inner + 1 => do
            let inside ← collectFieldsOnto system fragments type inner fragment.selections (progress.enter name)
            collectFieldsOnto system fragments type (inner + 1) rest inside.leave
      else collectFieldsOnto system fragments type depth rest progress
  | depth, .inline condition? _ selections :: rest, progress =>
    if system.admits condition? type then do
      let inside ← collectFieldsOnto system fragments type depth selections progress
      collectFieldsOnto system fragments type depth rest inside
    else collectFieldsOnto system fragments type depth rest progress
termination_by depth selections => (depth, sizeOf selections)
decreasing_by
  · exact .right _ (sizeOf_rest_lt _ _)
  · exact .right _ (sizeOf_rest_lt _ _)
  · exact .left _ _ (Nat.lt_succ_self _)
  · exact .right _ (sizeOf_rest_lt _ _)
  · exact .right _ (sizeOf_rest_lt _ _)
  · exact .right _ (sizeOf_inline_lt _ _ _ _)
  · exact .right _ (sizeOf_rest_lt _ _)
  · exact .right _ (sizeOf_rest_lt _ _)

/-- Gathers the selection sets of the fields that answer to a key, selection by selection; bounded in the same way. -/
def occurrencesOnto (fragments : Fragments) (key : Name) :
    Nat → SelectionSet → Progress SelectionSet → Option (Progress SelectionSet)
  | _, [], progress => return progress
  | depth, .field alias? name _ _ selections :: rest, progress =>
    occurrencesOnto fragments key depth rest
      (if responseKey alias? name = key then progress.add [selections] else progress)
  | depth, .spread name _ :: rest, progress =>
    if progress.active.contains name then occurrencesOnto fragments key depth rest progress
    else match fragments.find? name with
      | none => occurrencesOnto fragments key depth rest progress
      | some fragment =>
        match depth with
        | 0 => none
        | inner + 1 => do
          let inside ← occurrencesOnto fragments key inner fragment.selections (progress.enter name)
          occurrencesOnto fragments key (inner + 1) rest inside.leave
  | depth, .inline _ _ selections :: rest, progress => do
    let inside ← occurrencesOnto fragments key depth selections progress
    occurrencesOnto fragments key depth rest inside
termination_by depth selections => (depth, sizeOf selections)
decreasing_by
  · exact .right _ (sizeOf_rest_lt _ _)
  · exact .right _ (sizeOf_rest_lt _ _)
  · exact .right _ (sizeOf_rest_lt _ _)
  · exact .left _ _ (Nat.lt_succ_self _)
  · exact .right _ (sizeOf_rest_lt _ _)
  · exact .right _ (sizeOf_inline_lt _ _ _ _)
  · exact .right _ (sizeOf_rest_lt _ _)

section Onto

variable {system : TypeSystem} {fragments : Fragments} {type key : Name}

theorem mem_enter_iff {α : Type} {progress : Progress α} {entered : List Name}
    (hactive : ∀ name, name ∈ progress.active ↔ name ∈ entered) (inner name : Name) :
    name ∈ (progress.enter inner).active ↔ name ∈ inner :: entered := by
  simp [Progress.enter, hactive name, or_comm]

/-- A bound that suffices for entering a fragment leaves one that suffices for what is in it. -/
theorem exists_eq_succ_of_inactive_le {entered : List Name} {name : Name} {fragment : Fragment} {depth : Nat}
    (hfind : fragments.find? name = some fragment) (hnew : entered.contains name = false)
    (hdepth : fragments.inactive entered ≤ depth) :
    ∃ inner, depth = inner + 1 ∧ fragments.inactive (name :: entered) ≤ inner := by
  have hfewer := Fragments.inactive_cons_lt hfind hnew
  exact ⟨depth - 1, by omega, by omega⟩

/-- By induction on the traversal; `entered` holds the same fragments as the stack, in any order. -/
theorem collectFieldsOnto_eq {entered : List Name} {selections : SelectionSet} {depth : Nat}
    {progress : Progress AppliedField} (hactive : ∀ name, name ∈ progress.active ↔ name ∈ entered)
    (hdepth : fragments.inactive entered ≤ depth) :
    collectFieldsOnto system fragments type depth selections progress =
      progress.finish (collectFields system fragments type entered selections) := by
  induction entered, selections using fragments.traversal generalizing depth progress with
  | nil entered =>
    rw [collectFieldsOnto, collectFields_nil]
    exact congrArg (fun found => some (Except.ok found)) progress.add_nil.symm
  | field entered alias? name arguments directives selections rest ihrest =>
    rw [collectFieldsOnto, collectFields_cons, ← Progress.finish_bind fun items => ihrest hactive hdepth, firstFields]
    split_ifs
    · exact congrArg _ progress.add_nil.symm
    · cases system.field? type name <;> rfl
  | spread entered name directives rest ihbody ihrest =>
    rw [collectFieldsOnto, collectFields_cons, ← Progress.finish_bind fun items => ihrest hactive hdepth, firstFields]
    have hcontains : progress.active.contains name = entered.contains name := by simp [hactive name]
    cases hfind : fragments.find? name with
    | none => rfl
    | some fragment =>
      simp only [hcontains]
      split_ifs with hsatisfies hentered
      · rfl
      · have hnew : entered.contains name = false := by simpa using hentered
        obtain ⟨inner, rfl, hinner⟩ := exists_eq_succ_of_inactive_le hfind hnew hdepth
        dsimp only
        rw [ihbody fragment hfind hnew (mem_enter_iff hactive name) hinner, Progress.finish_enter_bind]
      · exact congrArg _ progress.add_nil.symm
  | inline entered condition? directives selections rest ihbody ihrest =>
    rw [collectFieldsOnto, collectFields_cons, ← Progress.finish_bind fun items => ihrest hactive hdepth, firstFields]
    split_ifs
    · rw [ihbody hactive hdepth]
    · exact congrArg _ progress.add_nil.symm

theorem occurrencesOnto_eq {entered : List Name} {selections : SelectionSet} {depth : Nat}
    {progress : Progress SelectionSet} (hactive : ∀ name, name ∈ progress.active ↔ name ∈ entered)
    (hdepth : fragments.inactive entered ≤ depth) :
    occurrencesOnto fragments key depth selections progress =
      some (progress.add (occurrences fragments key entered selections)) := by
  induction entered, selections using fragments.traversal generalizing depth progress with
  | nil entered =>
    rw [occurrencesOnto, occurrences_nil, progress.add_nil]
    rfl
  | field entered alias? name arguments directives selections rest ihrest =>
    rw [occurrencesOnto, occurrences_field, ← progress.add_add]
    split_ifs
    · exact ihrest hactive hdepth
    · rw [progress.add_nil]
      exact ihrest hactive hdepth
  | spread entered name directives rest ihbody ihrest =>
    have hcontains : progress.active.contains name = entered.contains name := by simp [hactive name]
    rw [occurrencesOnto, hcontains]
    cases hfind : fragments.find? name with
    | none =>
      rw [occurrences_spread_of_unknown hfind, ihrest hactive hdepth]
      split_ifs <;> rfl
    | some fragment =>
      rw [occurrences_spread_of_known hfind]
      split_ifs with hentered
      · exact ihrest hactive hdepth
      · have hnew : entered.contains name = false := by simpa using hentered
        obtain ⟨inner, rfl, hinner⟩ := exists_eq_succ_of_inactive_le hfind hnew hdepth
        have hbody := ihbody fragment hfind hnew (mem_enter_iff hactive name) hinner
        simp only [hbody, Option.bind_eq_bind, Option.bind_some, progress.leave_add_enter, ← progress.add_add]
        exact ihrest hactive hdepth
  | inline entered condition? directives selections rest ihbody ihrest =>
    rw [occurrencesOnto, occurrences_inline, ihbody hactive hdepth, ← progress.add_add]
    exact ihrest hactive hdepth

end Onto

section Fewer

variable {system : TypeSystem} {fragments : Fragments} {type key : Name} {active fewer : List Name}
  {selections : SelectionSet}

/-- Equal outcomes, unless the first one fails on entering a fragment that is active there only. -/
def SameUnlessActive {α : Type} (active fewer : List Name) (outcome other : Except MaskError α) : Prop :=
  outcome = other ∨ ∃ name ∈ active, name ∉ fewer ∧ outcome = .error (.fragmentCycle name)

theorem SameUnlessActive.append {α : Type} {first otherFirst later otherLater : Except MaskError (List α)}
    (hfirst : SameUnlessActive active fewer first otherFirst)
    (hlater : SameUnlessActive active fewer later otherLater) :
    SameUnlessActive active fewer (first >>= fun front => later >>= fun rest => pure (front ++ rest))
      (otherFirst >>= fun front => otherLater >>= fun rest => pure (front ++ rest)) := by
  rcases hfirst with rfl | ⟨name, hname, hnot, rfl⟩
  · cases first with
    | error fault => exact .inl rfl
    | ok front =>
      rcases hlater with rfl | ⟨name, hname, hnot, rfl⟩
      · exact .inl rfl
      · exact .inr ⟨name, hname, hnot, rfl⟩
  · exact .inr ⟨name, hname, hnot, rfl⟩

/-- A fragment that is active on both sides is not the one to blame. -/
theorem SameUnlessActive.of_cons {α : Type} {name : Name} {outcome other : Except MaskError α}
    (h : SameUnlessActive (name :: active) (name :: fewer) outcome other) :
    SameUnlessActive active fewer outcome other := by
  refine h.imp_right ?_
  rintro ⟨inner, hinner, hnot, hfault⟩
  rw [List.mem_cons, not_or] at hnot
  exact ⟨inner, (List.mem_cons.mp hinner).resolve_left hnot.1, hnot.2, hfault⟩

theorem collectFields_of_subset (hsubset : fewer ⊆ active) :
    SameUnlessActive active fewer (collectFields system fragments type active selections)
      (collectFields system fragments type fewer selections) := by
  induction active, selections using fragments.traversal generalizing fewer with
  | nil active =>
    rw [collectFields_nil, collectFields_nil]
    exact .inl rfl
  | field active alias? name arguments directives selections rest ihrest =>
    rw [collectFields_cons, collectFields_cons]
    exact SameUnlessActive.append (.inl rfl) (ihrest hsubset)
  | spread active name directives rest ihbody ihrest =>
    rw [collectFields_cons, collectFields_cons]
    refine SameUnlessActive.append ?_ (ihrest hsubset)
    rw [firstFields, firstFields]
    cases hfind : fragments.find? name with
    | none => exact .inl rfl
    | some fragment =>
      dsimp only
      by_cases hsatisfies : system.satisfies fragment.condition type = true
      · rw [if_pos hsatisfies, if_pos hsatisfies]
        by_cases hactive : name ∈ active
        · by_cases hfewer : name ∈ fewer
          · simp [hactive, hfewer, SameUnlessActive]
          · exact .inr ⟨name, hactive, hfewer, by simp [hactive]⟩
        · have hfewer : name ∉ fewer := fun h => hactive (hsubset h)
          have hbody := ihbody fragment hfind (by simpa using hactive) (List.cons_subset_cons name hsubset)
          simpa [hactive, hfewer] using hbody.of_cons
      · rw [if_neg hsatisfies, if_neg hsatisfies]
        exact .inl rfl
  | inline active condition? directives selections rest ihbody ihrest =>
    rw [collectFields_cons, collectFields_cons]
    refine SameUnlessActive.append ?_ (ihrest hsubset)
    rw [firstFields, firstFields]
    split_ifs
    · exact ihbody hsubset
    · exact .inl rfl

/-- Fewer active fragments are passed over. -/
theorem occurrences_sublist_of_subset (hsubset : fewer ⊆ active) :
    (occurrences fragments key active selections).Sublist (occurrences fragments key fewer selections) := by
  induction active, selections using fragments.traversal generalizing fewer with
  | nil active => simp [occurrences_nil]
  | field active alias? name arguments directives selections rest ihrest =>
    rw [occurrences_field, occurrences_field]
    exact (ihrest hsubset).append_left _
  | spread active name directives rest ihbody ihrest =>
    have hrest := ihrest hsubset
    cases hfind : fragments.find? name with
    | none =>
      rw [occurrences_spread_of_unknown hfind, occurrences_spread_of_unknown hfind]
      exact hrest
    | some fragment =>
      rw [occurrences_spread_of_known hfind, occurrences_spread_of_known hfind]
      by_cases hactive : name ∈ active
      · rw [if_pos (by simpa using hactive)]
        split_ifs
        · exact hrest
        · exact hrest.trans (List.sublist_append_right _ _)
      · have hfewer : name ∉ fewer := fun h => hactive (hsubset h)
        rw [if_neg (by simpa using hactive), if_neg (by simpa using hfewer)]
        have hbody := ihbody fragment hfind (by simpa using hactive) (List.cons_subset_cons name hsubset)
        exact hbody.append hrest
  | inline active condition? directives selections rest ihbody ihrest =>
    rw [occurrences_inline, occurrences_inline]
    exact (ihbody hsubset).append (ihrest hsubset)

end Fewer

/--
The number of fragments bounds both traversals. They end with the stack of active fragments that they find unless
they fail, and add to the list what does not depend on the list. What is on the stack only matters for fragments that
are about to be entered. Take fewer active fragments: fields that are collected with more of them are collected all
the same; where the collection succeeds with the fewer ones only, it fails with the others on a fragment that is not
among the fewer; and occurrences that are gathered with more of them are gathered as well, in the same order.
-/
theorem traversals_restore_stack (system : TypeSystem) (fragments : Fragments) (type key : Name)
    (selections : SelectionSet) (active : List Name) :
    (∀ depth, fragments.length ≤ depth → ∀ found,
      (collectFieldsOnto system fragments type depth selections ⟨active, found⟩).run =
        some ((collectFields system fragments type active selections).map fun fields =>
          ⟨active, found ++ fields⟩)) ∧
    (∀ depth, fragments.length ≤ depth → ∀ found,
      occurrencesOnto fragments key depth selections ⟨active, found⟩ =
        some ⟨active, found ++ occurrences fragments key active selections⟩) ∧
    ∀ fewer, fewer ⊆ active →
      (∀ fields, collectFields system fragments type active selections = .ok fields →
        collectFields system fragments type fewer selections = .ok fields) ∧
      (∀ fault fields, collectFields system fragments type active selections = .error fault →
        collectFields system fragments type fewer selections = .ok fields →
          ∃ name ∈ active, name ∉ fewer ∧ fault = .fragmentCycle name) ∧
      (occurrences fragments key active selections).Sublist (occurrences fragments key fewer selections) := by
  have hinactive : fragments.inactive active ≤ fragments.length := List.countP_le_length
  refine ⟨fun depth hdepth found => collectFieldsOnto_eq (fun _ => Iff.rfl) (hinactive.trans hdepth),
    fun depth hdepth found => occurrencesOnto_eq (fun _ => Iff.rfl) (hinactive.trans hdepth), ?_⟩
  intro fewer hsubset
  have hsame : SameUnlessActive active fewer (collectFields system fragments type active selections)
      (collectFields system fragments type fewer selections) := collectFields_of_subset hsubset
  refine ⟨fun fields hfields => ?_, fun fault fields hfault hfields => ?_, occurrences_sublist_of_subset hsubset⟩
  · rcases hsame with hequal | ⟨name, -, -, hcycle⟩
    · exact hequal.symm.trans hfields
    · cases hfields.symm.trans hcycle
  · rcases hsame with hequal | ⟨name, hactive, hfewer, hcycle⟩
    · cases hfault.symm.trans (hequal.trans hfields)
    · exact ⟨name, hactive, hfewer, Except.error.inj (hfault.symm.trans hcycle)⟩

namespace Pets

/-- A fragment that is active is passed over, or fails the collection; others on the stack make no difference. -/
theorem named_inside_others :
    fragments.length ≤ 1 ∧ ["Mine"] ⊆ ["Mine", "Named"] ∧
      collectFields schema.typeSystem fragments "Dog" ["Mine", "Named"] [leaf "breed", .spread "Named" []] =
        .error (.fragmentCycle "Named") ∧
      (∃ name ∈ ["Mine", "Named"], name ∉ ["Mine"] ∧ MaskError.fragmentCycle "Named" = .fragmentCycle name) ∧
      (collectFieldsOnto schema.typeSystem fragments "Dog" 1 [leaf "breed", .spread "Named" []]
          ⟨["Mine"], [⟨"name", fieldOf "name" "String", []⟩]⟩).run =
        some (.ok ⟨["Mine"], [⟨"name", fieldOf "name" "String", []⟩, ⟨"breed", fieldOf "breed" "String", []⟩,
          ⟨"name", fieldOf "name" "String", []⟩]⟩) ∧
      occurrencesOnto fragments "name" 1 [leaf "name", .spread "Named" []] ⟨["Mine", "Named"], [[leaf "id"]]⟩ =
        some ⟨["Mine", "Named"], [[leaf "id"], []]⟩ ∧
      (occurrences fragments "name" ["Mine", "Named"] [leaf "name", .spread "Named" []]).Sublist
        (occurrences fragments "name" ["Mine"] [leaf "name", .spread "Named" []]) := by
  have hdepth : fragments.length ≤ 1 := by decide
  have hsubset : ["Mine"] ⊆ ["Mine", "Named"] := by decide
  have hcycle : collectFields schema.typeSystem fragments "Dog" ["Mine", "Named"]
      [leaf "breed", .spread "Named" []] = .error (.fragmentCycle "Named") := by cbv
  have hfields : collectFields schema.typeSystem fragments "Dog" ["Mine"] [leaf "breed", .spread "Named" []] =
      .ok [⟨"breed", fieldOf "breed" "String", []⟩, ⟨"name", fieldOf "name" "String", []⟩] := by cbv
  have hfound : occurrences fragments "name" ["Mine", "Named"] [leaf "name", .spread "Named" []] = [[]] := by cbv
  have hbreed := traversals_restore_stack schema.typeSystem fragments "Dog" "name"
    [leaf "breed", .spread "Named" []]
  have hname := traversals_restore_stack schema.typeSystem fragments "Dog" "name"
    [leaf "name", .spread "Named" []] ["Mine", "Named"]
  have honto := (hbreed ["Mine"]).1 1 hdepth [⟨"name", fieldOf "name" "String", []⟩]
  have hgathered := hname.2.1 1 hdepth [[leaf "id"]]
  rw [hfields] at honto
  rw [hfound] at hgathered
  exact ⟨hdepth, hsubset, hcycle, ((hbreed _).2.2 _ hsubset).2.1 _ _ hcycle hfields, honto, hgathered,
    (hname.2.2 _ hsubset).2.2⟩

end Pets

end QueryMask
