import QueryMask.Proofs.Collection
import QueryMask.Proofs.Occurrences
import Mathlib

/-! The selections at a response path of one field, and those of the applied fields of that name. -/

namespace QueryMask

/-- A property of all selections inside inline fragments and spreads, whatever their conditions. -/
def EveryReached (fragments : Fragments) (holds : Selection → Prop) (selections : SelectionSet) : Prop :=
  ∀ place selection, Reached fragments (fun _ => True) selections place selection → holds selection

namespace EveryReached

variable {fragments : Fragments} {holds : Selection → Prop} {rest : SelectionSet}

theorem nil : EveryReached fragments holds [] :=
  fun _ _ h => absurd h not_reached_nil

theorem cons_iff {first : Selection} :
    EveryReached fragments holds (first :: rest) ↔
      (∀ place selection, Reached fragments (fun _ => True) (first :: rest) (0 :: place) selection →
        holds selection) ∧ EveryReached fragments holds rest := by
  constructor
  · intro h
    refine ⟨fun place => h (0 :: place), fun place selection hreached => ?_⟩
    obtain ⟨index, place, rfl⟩ := List.exists_cons_of_ne_nil hreached.ne_nil
    exact h _ _ (reached_cons_succ.mpr hreached)
  · rintro ⟨hfirst, hrest⟩ place selection hreached
    obtain ⟨index, place, rfl⟩ := List.exists_cons_of_ne_nil hreached.ne_nil
    cases index with
    | zero => exact hfirst place selection hreached
    | succ index => exact hrest _ _ (reached_cons_succ.mp hreached)

theorem field_iff {alias? : Option Name} {name : Name} {arguments : List Argument}
    {directives : List Directive} {selections : SelectionSet} :
    EveryReached fragments holds (.field alias? name arguments directives selections :: rest) ↔
      holds (.field alias? name arguments directives selections) ∧
        EveryReached fragments holds rest := by
  rw [cons_iff]
  refine and_congr_left fun _ => ?_
  simp only [reached_field_zero]
  constructor
  · exact fun h => h [] _ ⟨rfl, rfl⟩
  · rintro h place selection ⟨-, rfl⟩
    exact h

theorem spread_iff {name : Name} {directives : List Directive} :
    EveryReached fragments holds (.spread name directives :: rest) ↔
      holds (.spread name directives) ∧
        (∀ fragment, fragments.find? name = some fragment →
          EveryReached fragments holds fragment.selections) ∧ EveryReached fragments holds rest := by
  rw [cons_iff, ← and_assoc]
  refine and_congr_left fun _ => ?_
  simp only [reached_spread_zero]
  constructor
  · intro h
    exact ⟨h [] _ (.inl ⟨rfl, rfl⟩), fun fragment hfind place selection hreached =>
      h place selection (.inr ⟨fragment, hfind, trivial, hreached⟩)⟩
  · rintro ⟨hspread, hbody⟩ place selection (⟨-, rfl⟩ | ⟨fragment, hfind, -, hreached⟩)
    · exact hspread
    · exact hbody fragment hfind place selection hreached

theorem inline_iff {condition? : Option Name} {directives : List Directive}
    {selections : SelectionSet} :
    EveryReached fragments holds (.inline condition? directives selections :: rest) ↔
      holds (.inline condition? directives selections) ∧ EveryReached fragments holds selections ∧
        EveryReached fragments holds rest := by
  rw [cons_iff, ← and_assoc]
  refine and_congr_left fun _ => ?_
  simp only [reached_inline_zero]
  constructor
  · intro h
    exact ⟨h [] _ (.inl ⟨rfl, rfl⟩), fun place selection hreached =>
      h place selection (.inr ⟨trivial, hreached⟩)⟩
  · rintro ⟨hinline, hbody⟩ place selection (⟨-, rfl⟩ | ⟨-, hreached⟩)
    · exact hinline
    · exact hbody place selection hreached

end EveryReached

/-- A selection is a field that answers to a name exactly if that is its own name, or not a field. -/
def Selection.AnswersByName (name : Name) : Selection → Prop
  | .field alias? declared _ _ _ => responseKey alias? declared = name ↔ declared = name
  | .spread _ _ | .inline _ _ _ => True

/-- The type condition of a selection, if it has one, lets an object type through. -/
def Selection.LetsThrough (system : TypeSystem) (fragments : Fragments) (type : Name) : Selection → Prop
  | .field _ _ _ _ _ => True
  | .spread name _ => ∀ fragment, fragments.find? name = some fragment →
    system.satisfies fragment.condition type = true
  | .inline condition? _ _ => system.admits condition? type = true

def setsNamed (fields : List AppliedField) (name : Name) : List SelectionSet :=
  (fields.filter (·.name == name)).map (·.selections)

section Occurrences

variable {system : TypeSystem} {fragments : Fragments} {type key : Name} {active : List Name}
  {selections : SelectionSet}

theorem setsNamed_append (front later : List AppliedField) :
    setsNamed (front ++ later) key = setsNamed front key ++ setsNamed later key := by
  simp [setsNamed]

theorem setsNamed_field (hopen : key.isReserved = false) {alias? : Option Name} {name : Name}
    {arguments : List Argument} {directives : List Directive} {below : SelectionSet}
    (hkey : responseKey alias? name = key ↔ name = key) {front : List AppliedField}
    (hfront : firstFields system fragments type active
      (.field alias? name arguments directives below) = .ok front) :
    setsNamed front key = if responseKey alias? name = key then [below] else [] := by
  rcases firstFields_field_eq_ok_iff.mp hfront with ⟨hreserved, rfl⟩ | ⟨-, definition, -, rfl⟩
  · have hne : name ≠ key := by
      rintro rfl
      simp [hopen] at hreserved
    simp [setsNamed, hkey, hne]
  · simp only [setsNamed, hkey]
    by_cases hname : name = key <;> simp [hname]

/-- The applied fields of a name are among the occurrences, which ignore type conditions. -/
theorem setsNamed_sublist (hopen : key.isReserved = false)
    (hkey : EveryReached fragments (Selection.AnswersByName key) selections)
    {fields : List AppliedField}
    (hfields : collectFields system fragments type active selections = .ok fields) :
    (setsNamed fields key).Sublist (occurrences fragments key active selections) := by
  induction active, selections using fragments.traversal generalizing fields with
  | nil active =>
    obtain rfl : [] = fields := by simpa [collectFields] using hfields
    exact List.nil_sublist _
  | field active alias? name arguments directives selections rest ihrest =>
    obtain ⟨front, later, hfront, hlater, rfl⟩ := collectFields_cons_eq_ok_iff.mp hfields
    obtain ⟨hanswers, hrest⟩ := EveryReached.field_iff.mp hkey
    rw [setsNamed_append, occurrences_field, setsNamed_field hopen hanswers hfront]
    exact (List.Sublist.refl _).append (ihrest hrest hlater)
  | spread active name directives rest ihbody ihrest =>
    obtain ⟨front, later, hfront, hlater, rfl⟩ := collectFields_cons_eq_ok_iff.mp hfields
    obtain ⟨-, hbodies, hrest⟩ := EveryReached.spread_iff.mp hkey
    have hrestSublist := ihrest hrest hlater
    obtain ⟨fragment, hfind, hcase⟩ := firstFields_spread_eq_ok_iff.mp hfront
    rw [setsNamed_append, occurrences_spread_of_known hfind]
    rcases hcase with ⟨-, rfl⟩ | ⟨-, hactive, hbody⟩
    · split_ifs
      · exact hrestSublist
      · exact hrestSublist.trans (List.sublist_append_right _ _)
    · rw [hactive]
      exact (ihbody fragment hfind hactive (hbodies fragment hfind) hbody).append hrestSublist
  | inline active condition? directives selections rest ihbody ihrest =>
    obtain ⟨front, later, hfront, hlater, rfl⟩ := collectFields_cons_eq_ok_iff.mp hfields
    obtain ⟨-, hbody, hrest⟩ := EveryReached.inline_iff.mp hkey
    have hrestSublist := ihrest hrest hlater
    rw [setsNamed_append, occurrences_inline]
    rcases firstFields_inline_eq_ok_iff.mp hfront with ⟨-, rfl⟩ | ⟨-, hinline⟩
    · exact hrestSublist.trans (List.sublist_append_right _ _)
    · exact (ihbody hbody hinline).append hrestSublist

/-- Where all type conditions let the type through, the occurrences are the applied fields of the name. -/
theorem setsNamed_eq (hopen : key.isReserved = false)
    (hkey : EveryReached fragments (Selection.AnswersByName key) selections)
    (hthrough : EveryReached fragments (Selection.LetsThrough system fragments type) selections)
    {fields : List AppliedField}
    (hfields : collectFields system fragments type active selections = .ok fields) :
    setsNamed fields key = occurrences fragments key active selections := by
  induction active, selections using fragments.traversal generalizing fields with
  | nil active =>
    obtain rfl : [] = fields := by simpa [collectFields] using hfields
    rw [occurrences_nil]
    rfl
  | field active alias? name arguments directives selections rest ihrest =>
    obtain ⟨front, later, hfront, hlater, rfl⟩ := collectFields_cons_eq_ok_iff.mp hfields
    obtain ⟨hanswers, hrest⟩ := EveryReached.field_iff.mp hkey
    rw [setsNamed_append, occurrences_field, setsNamed_field hopen hanswers hfront,
      ihrest hrest (EveryReached.field_iff.mp hthrough).2 hlater]
  | spread active name directives rest ihbody ihrest =>
    obtain ⟨front, later, hfront, hlater, rfl⟩ := collectFields_cons_eq_ok_iff.mp hfields
    obtain ⟨-, hbodies, hrest⟩ := EveryReached.spread_iff.mp hkey
    obtain ⟨hcondition, hthroughBodies, hthroughRest⟩ := EveryReached.spread_iff.mp hthrough
    obtain ⟨fragment, hfind, hcase⟩ := firstFields_spread_eq_ok_iff.mp hfront
    have hsatisfies : system.satisfies fragment.condition type = true := hcondition fragment hfind
    rw [setsNamed_append, ihrest hrest hthroughRest hlater, occurrences_spread_of_known hfind]
    rcases hcase with ⟨hnot, -⟩ | ⟨-, hactive, hbody⟩
    · exact absurd hsatisfies (by simp [hnot])
    · rw [hactive, ihbody fragment hfind hactive (hbodies fragment hfind) (hthroughBodies fragment hfind) hbody]
      rfl
  | inline active condition? directives selections rest ihbody ihrest =>
    obtain ⟨front, later, hfront, hlater, rfl⟩ := collectFields_cons_eq_ok_iff.mp hfields
    obtain ⟨-, hbody, hrest⟩ := EveryReached.inline_iff.mp hkey
    obtain ⟨hadmits, hthroughBody, hthroughRest⟩ := EveryReached.inline_iff.mp hthrough
    have hadmits' : system.admits condition? type = true := hadmits
    rw [setsNamed_append, occurrences_inline, ihrest hrest hthroughRest hlater]
    rcases firstFields_inline_eq_ok_iff.mp hfront with ⟨hnot, -⟩ | ⟨-, hinline⟩
    · exact absurd hadmits' (by simp [hnot])
    · rw [ihbody hbody hthroughBody hinline]

end Occurrences

/-- A response path of one key leads to the occurrences of that key. -/
theorem Document.selectionsAt_of_not_mem {document : Document} {operation? : Option Name}
    {root : SelectionSet} (hroot : document.rootSelections operation? = .ok root) {key : Name}
    (hdot : '.' ∉ key.toList) :
    document.selectionsAt operation? key =
      if occurrences document.fragments key [] root = [] then .error (.fieldNotFound key)
      else .ok (occurrences document.fragments key [] root).flatten := by
  unfold selectionsAt
  rw [hroot, Path.segments_of_not_mem hdot]
  simp only [bind, Except.bind, follow?, List.flatMap_cons, List.flatMap_nil, List.append_nil]
  cases occurrences document.fragments key [] root with
  | nil => rfl
  | cons first rest => rfl

end QueryMask
