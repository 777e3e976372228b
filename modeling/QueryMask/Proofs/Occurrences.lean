import QueryMask.Query.ResponsePath
import QueryMask.Proofs.Fragments

/-! The occurrences of a response key: one selection at a time, over several selection sets,
and without active fragments. -/

namespace QueryMask

variable {fragments : Fragments} {key : Name} {active : List Name}

theorem occurrences_nil : occurrences fragments key active [] = [] := by
  simp [occurrences]

theorem occurrences_field {alias? : Option Name} {name : Name} {arguments : List Argument}
    {directives : List Directive} {selections rest : SelectionSet} :
    occurrences fragments key active (.field alias? name arguments directives selections :: rest) =
      (if responseKey alias? name = key then [selections] else []) ++
        occurrences fragments key active rest := by
  rw [occurrences]
  simp only [beq_iff_eq]
  split_ifs <;> rfl

theorem occurrences_inline {condition? : Option Name} {directives : List Directive}
    {selections rest : SelectionSet} :
    occurrences fragments key active (.inline condition? directives selections :: rest) =
      occurrences fragments key active selections ++ occurrences fragments key active rest := by
  rw [occurrences]

theorem occurrences_append (front later : SelectionSet) :
    occurrences fragments key active (front ++ later) =
      occurrences fragments key active front ++ occurrences fragments key active later := by
  induction front with
  | nil => rw [occurrences_nil, List.nil_append, List.nil_append]
  | cons first rest ih =>
    cases first with
    | field alias? name arguments directives selections =>
      rw [List.cons_append, occurrences_field, occurrences_field, ih, List.append_assoc]
    | inline condition? directives selections =>
      rw [List.cons_append, occurrences_inline, occurrences_inline, ih, List.append_assoc]
    | spread name directives =>
      rw [List.cons_append]
      cases hfind : fragments.find? name with
      | none =>
        rw [occurrences_spread_of_unknown hfind, occurrences_spread_of_unknown hfind, ih]
      | some fragment =>
        rw [occurrences_spread_of_known hfind, occurrences_spread_of_known hfind, ih]
        split_ifs
        · rfl
        · rw [List.append_assoc]

theorem occurrences_flatten (sets : List SelectionSet) :
    occurrences fragments key active sets.flatten =
      sets.flatMap (occurrences fragments key active) := by
  induction sets with
  | nil => exact occurrences_nil
  | cons set rest ih => rw [List.flatten_cons, occurrences_append, ih, List.flatMap_cons]

/-- Active fragments out of reach make no difference. -/
theorem occurrences_of_fresh (hacyclic : fragments.Acyclic) {active other : List Name}
    {selections : SelectionSet} (hactive : fragments.Fresh active selections)
    (hother : fragments.Fresh other selections) :
    occurrences fragments key active selections = occurrences fragments key other selections := by
  induction selections using hacyclic.induction generalizing active other with
  | nil => rw [occurrences_nil, occurrences_nil]
  | field alias? name arguments directives selections rest _ ihrest =>
    rw [occurrences_field, occurrences_field, ihrest hactive.rest hother.rest]
  | unknown name directives rest hfind ihrest =>
    rw [occurrences_spread_of_unknown hfind, occurrences_spread_of_unknown hfind,
      ihrest hactive.rest hother.rest]
  | known name directives fragment rest hfind ihbody ihrest =>
    rw [occurrences_spread_of_known hfind, occurrences_spread_of_known hfind, hactive.not_active,
      hother.not_active, ihrest hactive.rest hother.rest,
      ihbody (hactive.spread hacyclic hfind) (hother.spread hacyclic hfind)]
  | inline condition? directives selections rest ihbody ihrest =>
    rw [occurrences_inline, occurrences_inline, ihrest hactive.rest hother.rest,
      ihbody hactive.inline hother.inline]

/-- Without cycles a spread has the occurrences of its fragment. -/
theorem occurrences_spread_of_acyclic (hacyclic : fragments.Acyclic) {name : Name}
    {directives : List Directive} {rest : SelectionSet} {fragment : Fragment}
    (hfind : fragments.find? name = some fragment) :
    occurrences fragments key [] (.spread name directives :: rest) =
      occurrences fragments key [] fragment.selections ++ occurrences fragments key [] rest := by
  rw [occurrences_spread_of_known hfind, if_neg (by simp),
    occurrences_of_fresh hacyclic (Fragments.fresh_body hacyclic hfind) Fragments.fresh_nil]

end QueryMask
