import QueryMask.Proofs.PathComposition
import Mathlib

/-! What response paths lead to: every field that inline fragments and spreads of defined fragments lead to, also
where fragments lead back to themselves. A route that enters a fragment again can be cut short. -/

namespace QueryMask

/-- The selection is reached in one of the active fragments, in fewer steps. -/
def ReachedSooner (fragments : Fragments) (active : List Name) (steps : Nat) (selection : Selection) : Prop :=
  ∃ name ∈ active, ∃ fragment place, fragments.find? name = some fragment ∧ place.length < steps ∧
    Reached fragments (fun _ => True) fragment.selections place selection

/-- A field that answers to the key is reached in the selections, and has the selections `below`. -/
def AnswersIn (fragments : Fragments) (key : Name) (selections below : SelectionSet) : Prop :=
  ∃ place alias? name arguments directives, Reached fragments (fun _ => True) selections place
    (.field alias? name arguments directives below) ∧ responseKey alias? name = key

/--
The keys lead from some selections to the last ones: each key to a field reached in the selections of the field
before it.
-/
def Leads (fragments : Fragments) : List Name → SelectionSet → SelectionSet → Prop
  | [], selections, last => last = selections
  | key :: keys, selections, last =>
    ∃ below, AnswersIn fragments key selections below ∧ Leads fragments keys below last

section Occurrences

variable {fragments : Fragments} {key : Name} {active : List Name} {selections below : SelectionSet}

/-- A route that comes back to a fragment is cut short, until it does not. -/
theorem ReachedSooner.cut {holds : Prop} {name : Name} {fragment : Fragment} {selection : Selection}
    (hfind : fragments.find? name = some fragment)
    (h : ∀ place, Reached fragments (fun _ => True) fragment.selections place selection →
      holds ∨ ReachedSooner fragments (name :: active) place.length selection)
    {place : Place} (hreached : Reached fragments (fun _ => True) fragment.selections place selection) :
    holds ∨ ReachedSooner fragments active place.length selection := by
  induction hsteps : place.length using Nat.strongRecOn generalizing place with
  | ind steps ih =>
    subst hsteps
    rcases h place hreached with hholds | ⟨other, hother, found, shorter, hfound, hless, hagain⟩
    · exact .inl hholds
    · rcases List.mem_cons.mp hother with rfl | hactive
      · obtain rfl := Option.some.inj (hfind.symm.trans hfound)
        rcases ih shorter.length hless hagain rfl with hholds | ⟨name, hname, body, last, hbody, hlast, hend⟩
        · exact .inl hholds
        · exact .inr ⟨name, hname, body, last, hbody, hlast.trans hless, hend⟩
      · exact .inr ⟨other, hactive, found, shorter, hfound, hless, hagain⟩

theorem occurrences_rest_subset (first : Selection) (rest : SelectionSet) :
    occurrences fragments key active rest ⊆ occurrences fragments key active (first :: rest) := by
  have hsplit : first :: rest = [first] ++ rest := rfl
  rw [hsplit, occurrences_append]
  exact List.subset_append_right _ _

/-- A reached field is among the occurrences, unless it is reached sooner in an active fragment. -/
theorem mem_occurrences_or_sooner {place : Place} {alias? : Option Name} {name : Name}
    {arguments : List Argument} {directives : List Directive} (hkey : responseKey alias? name = key)
    (hreached : Reached fragments (fun _ => True) selections place
      (.field alias? name arguments directives below)) :
    below ∈ occurrences fragments key active selections ∨
      ReachedSooner fragments active place.length (.field alias? name arguments directives below) := by
  induction active, selections using fragments.traversal generalizing place with
  | nil active => exact absurd hreached not_reached_nil
  | field active other? other given applied selections rest ihrest =>
    obtain ⟨index, place, rfl⟩ := List.exists_cons_of_ne_nil hreached.ne_nil
    cases index with
    | zero =>
      obtain ⟨-, hfield⟩ := reached_field_zero.mp hreached
      obtain ⟨rfl, rfl, -, -, rfl⟩ := Selection.field.inj hfield
      rw [occurrences_field, if_pos hkey]
      exact .inl (List.mem_append_left _ List.mem_cons_self)
    | succ index =>
      have hrest := ihrest (reached_cons_succ.mp hreached)
      exact hrest.imp_left fun hmem => occurrences_rest_subset _ _ hmem
  | spread active spread applied rest ihbody ihrest =>
    obtain ⟨index, place, rfl⟩ := List.exists_cons_of_ne_nil hreached.ne_nil
    cases index with
    | zero =>
      rcases reached_spread_zero.mp hreached with ⟨-, hspread⟩ | ⟨fragment, hfind, -, hbody⟩
      · cases hspread
      · cases hactive : active.contains spread with
        | true =>
          have hmem : spread ∈ active := by simpa using hactive
          exact .inr ⟨spread, hmem, fragment, place, hfind, Nat.lt_succ_self _, hbody⟩
        | false =>
          rw [occurrences_spread_of_known hfind, hactive]
          have hinside := fun place => @ihbody fragment hfind hactive place
          rcases ReachedSooner.cut hfind hinside hbody with hmem |
            ⟨other, hother, found, shorter, hfound, hless, h⟩
          · exact .inl (List.mem_append_left _ hmem)
          · exact .inr ⟨other, hother, found, shorter, hfound, Nat.lt_succ_of_lt hless, h⟩
    | succ index =>
      have hrest := ihrest (reached_cons_succ.mp hreached)
      exact hrest.imp_left fun hmem => occurrences_rest_subset _ _ hmem
  | inline active condition? applied selections rest ihbody ihrest =>
    obtain ⟨index, place, rfl⟩ := List.exists_cons_of_ne_nil hreached.ne_nil
    cases index with
    | zero =>
      rcases reached_inline_zero.mp hreached with ⟨-, hinline⟩ | ⟨-, hbody⟩
      · cases hinline
      · rw [occurrences_inline]
        rcases ihbody hbody with hmem | ⟨other, hother, found, shorter, hfound, hless, h⟩
        · exact .inl (List.mem_append_left _ hmem)
        · exact .inr ⟨other, hother, found, shorter, hfound, Nat.lt_succ_of_lt hless, h⟩
    | succ index =>
      have hrest := ihrest (reached_cons_succ.mp hreached)
      exact hrest.imp_left fun hmem => occurrences_rest_subset _ _ hmem

theorem AnswersIn.rest {first : Selection} {rest : SelectionSet} (h : AnswersIn fragments key rest below) :
    AnswersIn fragments key (first :: rest) below := by
  obtain ⟨place, alias?, name, arguments, directives, hreached, hkey⟩ := h
  obtain ⟨index, place, rfl⟩ := List.exists_cons_of_ne_nil hreached.ne_nil
  exact ⟨_, alias?, name, arguments, directives, reached_cons_succ.mpr hreached, hkey⟩

/-- All occurrences are reached. -/
theorem answersIn_of_mem_occurrences (h : below ∈ occurrences fragments key active selections) :
    AnswersIn fragments key selections below := by
  induction active, selections using fragments.traversal with
  | nil active => simp [occurrences_nil] at h
  | field active alias? name arguments directives selections rest ihrest =>
    rw [occurrences_field, List.mem_append] at h
    rcases h with hfirst | hrest
    · split_ifs at hfirst with hkey
      · obtain rfl := List.mem_singleton.mp hfirst
        exact ⟨[0], alias?, name, arguments, directives, .here rfl, hkey⟩
      · simp at hfirst
    · exact (ihrest hrest).rest
  | spread active spread directives rest ihbody ihrest =>
    cases hfind : fragments.find? spread with
    | none =>
      rw [occurrences_spread_of_unknown hfind] at h
      exact (ihrest h).rest
    | some fragment =>
      rw [occurrences_spread_of_known hfind] at h
      split_ifs at h with hactive
      · exact (ihrest h).rest
      · rcases List.mem_append.mp h with hbody | hrest
        · obtain ⟨place, alias?, name, arguments, others, hreached, hkey⟩ :=
            ihbody fragment hfind (by simpa using hactive) hbody
          exact ⟨0 :: place, alias?, name, arguments, others,
            reached_spread_zero.mpr (.inr ⟨fragment, hfind, trivial, hreached⟩), hkey⟩
        · exact (ihrest hrest).rest
  | inline active condition? directives selections rest ihbody ihrest =>
    rw [occurrences_inline, List.mem_append] at h
    rcases h with hbody | hrest
    · obtain ⟨place, alias?, name, arguments, others, hreached, hkey⟩ := ihbody hbody
      exact ⟨0 :: place, alias?, name, arguments, others,
        reached_inline_zero.mpr (.inr ⟨trivial, hreached⟩), hkey⟩
    · exact (ihrest hrest).rest

/-- Without active fragments the occurrences of a key are all reached fields that answer to it. -/
theorem mem_occurrences_iff :
    below ∈ occurrences fragments key [] selections ↔ AnswersIn fragments key selections below := by
  refine ⟨answersIn_of_mem_occurrences, ?_⟩
  rintro ⟨place, alias?, name, arguments, directives, hreached, hkey⟩
  rcases mem_occurrences_or_sooner hkey hreached with hmem | ⟨other, hother, -⟩
  · exact hmem
  · simp at hother

end Occurrences

section Follow

variable {fragments : Fragments} {keys : List Name} {current found : List SelectionSet} {last : SelectionSet}

theorem mem_flatMap_occurrences_iff {key : Name} :
    last ∈ current.flatMap (occurrences fragments key []) ↔
      ∃ start ∈ current, AnswersIn fragments key start last := by
  simp only [List.mem_flatMap, mem_occurrences_iff]

/-- Keys are followed to all selections that they lead to, which are some if there are some to start with. -/
theorem follow?_eq_some (h : follow? fragments keys current = some found) :
    (∀ last, last ∈ found ↔ ∃ start ∈ current, Leads fragments keys start last) ∧
      (current ≠ [] → found ≠ []) := by
  induction keys generalizing current with
  | nil =>
    obtain rfl := Option.some.inj h
    simp [Leads]
  | cons key keys ih =>
    unfold follow? at h
    cases hmiddle : current.flatMap (occurrences fragments key []) with
    | nil => simp [hmiddle] at h
    | cons first others =>
      rw [hmiddle] at h
      obtain ⟨hmem, hsome⟩ := ih h
      refine ⟨fun last => ?_, fun _ => hsome (by simp)⟩
      rw [hmem, ← hmiddle]
      simp only [mem_flatMap_occurrences_iff, Leads]
      constructor
      · rintro ⟨below, ⟨start, hstart, hbelow⟩, hlast⟩
        exact ⟨start, hstart, below, hbelow, hlast⟩
      · rintro ⟨start, hstart, below, hbelow, hlast⟩
        exact ⟨below, ⟨start, hstart, hbelow⟩, hlast⟩

/-- Keys are given up only if they lead nowhere. -/
theorem not_leads_of_follow?_eq_none (h : follow? fragments keys current = none) :
    ∀ start ∈ current, ∀ last, ¬ Leads fragments keys start last := by
  induction keys generalizing current with
  | nil => simp [follow?] at h
  | cons key keys ih =>
    rintro start hstart last ⟨below, hbelow, hlast⟩
    have hmem := mem_flatMap_occurrences_iff.mpr ⟨start, hstart, hbelow⟩
    unfold follow? at h
    cases hmiddle : current.flatMap (occurrences fragments key []) with
    | nil => simp [hmiddle] at hmem
    | cons first others =>
      rw [hmiddle] at h hmem
      exact ih h below hmem last hlast

end Follow

namespace Operations

/-- The operation that a document has for a name, or without a name: the only one. -/
def Answers (operations : Operations) (operation? : Option Name) (operation : Operation) : Prop :=
  match operation? with
  | none => ∃ name?, operations.toList = [(name?, operation)]
  | some name => (none, operation) ∈ operations.toList ∨ (some name, operation) ∈ operations.toList

/-- There is no telling which operation is meant: several without a name, or none that answers to the name. -/
def Undecided (operations : Operations) (operation? : Option Name) : Prop :=
  match operation? with
  | none => 1 < operations.toList.length
  | some name => ∀ entry ∈ operations.toList, entry.1 ≠ none ∧ entry.1 ≠ some name

theorem undecided_named_iff {entries : List (Name × Operation)} {name : Name} :
    (named entries).Undecided (some name) ↔ ∀ entry ∈ entries, entry.1 ≠ name := by
  simp only [Undecided, toList, List.forall_mem_map, ne_eq, reduceCtorEq, not_false_eq_true, true_and,
    Option.some.injEq]

/-- An operation is selected exactly if it is clear which one is meant. -/
theorem select_cases {operations : Operations} (hsome : operations.toList ≠ []) (operation? : Option Name) :
    (operations.Undecided operation? ∧ ∃ fault, operations.select operation? = .error fault) ∨
      (¬ operations.Undecided operation? ∧ ∃ operation, operations.select operation? = .ok operation ∧
        operations.Answers operation? operation) := by
  cases operations with
  | anonymous operation =>
    right
    cases operation? with
    | none => exact ⟨by simp [Undecided, toList], operation, rfl, none, rfl⟩
    | some name => exact ⟨by simp [Undecided, toList], operation, rfl, .inl (by simp [toList])⟩
  | named entries =>
    cases operation? with
    | none =>
      match entries with
      | [] => simp [toList] at hsome
      | [(name, operation)] => exact .inr ⟨by simp [Undecided, toList], operation, rfl, some name, rfl⟩
      | _ :: _ :: _ => exact .inl ⟨by simp [Undecided, toList], _, rfl⟩
    | some name =>
      cases hfind : entries.lookup name with
      | none =>
        refine .inl ⟨undecided_named_iff.mpr ?_, .unknownOperation name, by simp [select, withName, hfind]⟩
        rintro ⟨known, operation⟩ hmem rfl
        simpa using List.lookup_eq_none_iff.mp hfind (known, operation) hmem
      | some operation =>
        obtain ⟨before, after, rfl, -⟩ := List.lookup_eq_some_iff.mp hfind
        refine .inr ⟨fun hundecided => ?_, operation, by simp [select, withName, hfind], .inr (by simp [toList])⟩
        exact undecided_named_iff.mp hundecided (name, operation) (by simp) rfl

end Operations

/--
What a response path leads to, also in documents with cyclic and undefined fragments. The query is at fault exactly
if there is no telling which operation is meant. Otherwise the path is found if and only if there are fields with
its keys, the first one reached in the operation and each other one in the selections of the one before it; if there
are none, the fault names the whole path. The selections found are those of all last fields.
-/
theorem Document.selectionsAt_reaches (document : Document) (hoperations : document.operations.toList ≠ [])
    (operation? : Option Name) (path : Path) :
    ((∃ fault, document.selectionsAt operation? path = .error (.invalidQuery fault)) ↔
      document.operations.Undecided operation?) ∧
    (¬ document.operations.Undecided operation? →
      ∃ operation, document.operations.Answers operation? operation ∧
        ((∃ selections, document.selectionsAt operation? path = .ok selections) ↔
          ∃ last, Leads document.fragments path.segments operation.selections last) ∧
        ((¬ ∃ last, Leads document.fragments path.segments operation.selections last) →
          document.selectionsAt operation? path = .error (.fieldNotFound path)) ∧
        ∀ selections, document.selectionsAt operation? path = .ok selections →
          ∀ item, item ∈ selections ↔
            ∃ last, Leads document.fragments path.segments operation.selections last ∧ item ∈ last) := by
  rcases Operations.select_cases hoperations operation? with
    ⟨hundecided, fault, hselect⟩ | ⟨hdecided, operation, hselect, hanswers⟩
  · have hfault : document.selectionsAt operation? path = .error (.invalidQuery fault) := by
      simp [selectionsAt, rootSelections, hselect, bind, Except.bind]
    exact ⟨iff_of_true ⟨fault, hfault⟩ hundecided, fun hdecided => absurd hundecided hdecided⟩
  · have hroot : document.rootSelections operation? = .ok operation.selections := by
      simp [rootSelections, hselect]
    rw [selectionsAt_of_root hroot]
    cases hfollow : follow? document.fragments path.segments [operation.selections] with
    | none =>
      have hnowhere : ¬ ∃ last, Leads document.fragments path.segments operation.selections last := by
        rintro ⟨last, hlast⟩
        exact not_leads_of_follow?_eq_none hfollow _ List.mem_cons_self last hlast
      refine ⟨iff_of_false (by simp) hdecided, fun _ => ⟨operation, hanswers, ?_⟩⟩
      exact ⟨iff_of_false (by simp) hnowhere, fun _ => rfl, by simp⟩
    | some found =>
      obtain ⟨hmem, hsome⟩ := follow?_eq_some hfollow
      simp only [List.mem_singleton, exists_eq_left] at hmem
      obtain ⟨last, hlast⟩ := List.exists_mem_of_ne_nil found (hsome (by simp))
      have hleads : ∃ last, Leads document.fragments path.segments operation.selections last :=
        ⟨last, (hmem last).mp hlast⟩
      refine ⟨iff_of_false (by simp) hdecided, fun _ => ⟨operation, hanswers, ?_⟩⟩
      refine ⟨iff_of_true ⟨found.flatten, rfl⟩ hleads, fun hnowhere => absurd hleads hnowhere, ?_⟩
      intro selections hselections item
      obtain rfl := Except.ok.inj hselections
      simp only [List.mem_flatten, hmem]

namespace Pets

/-- Owners below pets are reached by way of a fragment that spreads itself, at once and again below the owners. -/
theorem circle_reaches :
    circle.operations.toList ≠ [] ∧ ¬ circle.operations.Undecided (some "Circle") ∧
      circle.selectionsAt (some "Circle") "pet.owner" = .ok [.spread "Loop" [], leaf "id", leaf "id"] ∧
      (∃ operation, circle.operations.Answers (some "Circle") operation ∧
        ∀ item, item ∈ [Selection.spread "Loop" [], leaf "id", leaf "id"] ↔
          ∃ last, Leads circle.fragments ["pet", "owner"] operation.selections last ∧ item ∈ last) ∧
      ∃ fault, circle.selectionsAt none "pet" = .error (.invalidQuery fault) := by
  have hoperations : circle.operations.toList ≠ [] := nofun
  have hdecided : ¬ circle.operations.Undecided (some "Circle") := by
    intro hundecided
    exact Operations.undecided_named_iff.mp hundecided _ (.tail _ (.head _)) rfl
  have hfound : circle.selectionsAt (some "Circle") "pet.owner" =
      .ok [.spread "Loop" [], leaf "id", leaf "id"] := by cbv
  have hsegments : Path.segments "pet.owner" = ["pet", "owner"] := by cbv
  have hreaches := circle.selectionsAt_reaches hoperations (some "Circle") "pet.owner"
  rw [hsegments] at hreaches
  obtain ⟨operation, hanswers, -, -, hitems⟩ := hreaches.2 hdecided
  have hseveral : circle.operations.Undecided none := Nat.lt_succ_self 1
  have hundecided := (circle.selectionsAt_reaches hoperations none "pet").1.mpr hseveral
  exact ⟨hoperations, hdecided, hfound, ⟨operation, hanswers, hitems _ hfound⟩, hundecided⟩

end Pets

end QueryMask
