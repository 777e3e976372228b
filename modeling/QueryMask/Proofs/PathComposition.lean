import QueryMask.Proofs.Collection
import QueryMask.Proofs.Occurrences
import Mathlib

/-! Response paths in two parts: the second part leads on from the selections that the first one finds. -/

namespace QueryMask

section Follow

variable {fragments : Fragments}

/-- Keys are followed one after another, whatever is found on the way. -/
theorem follow?_append (front later : List Name) (current : List SelectionSet) :
    follow? fragments (front ++ later) current =
      (follow? fragments front current).bind (follow? fragments later) := by
  induction front generalizing current with
  | nil => rfl
  | cons key keys ih =>
    simp only [List.cons_append, follow?]
    cases hfound : current.flatMap (occurrences fragments key []) with
    | nil => rfl
    | cons first rest => exact ih (first :: rest)

/-- A key leads on from several selection sets as it does from all their selections in one set. -/
theorem follow?_flatten {keys : List Name} (hkeys : keys ≠ []) (sets : List SelectionSet) :
    follow? fragments keys [sets.flatten] = follow? fragments keys sets := by
  obtain ⟨key, keys, rfl⟩ := List.exists_cons_of_ne_nil hkeys
  have hsame : [sets.flatten].flatMap (occurrences fragments key []) =
      sets.flatMap (occurrences fragments key []) := by
    rw [List.flatMap_singleton, occurrences_flatten]
  simp only [follow?, hsame]

end Follow

theorem Path.segments_ne_nil (path : Path) : path.segments ≠ [] := by
  have hpieces := pieces_ne_nil '.' path.toList
  simpa [segments, piecesOf] using hpieces

/-- The first operation that a name selects gets other selections; no name stands for any. -/
def Operations.replaceSelections (selections : SelectionSet) (operation? : Option Name) :
    Operations → Operations
  | anonymous operation => anonymous { operation with selections := selections }
  | named entries => named <| entries.replaceF fun entry =>
    if operation?.all (· == entry.1) then some (entry.1, { entry.2 with selections := selections })
    else none

/-- The document with other selections in the selected operation. -/
def Document.withRoot (document : Document) (operation? : Option Name) (selections : SelectionSet) :
    Document :=
  { document with operations := document.operations.replaceSelections selections operation? }

theorem lookup_replaceF {name : Name} {entries : List (Name × Operation)} {operation : Operation}
    (hfind : entries.lookup name = some operation) (f : Name × Operation → Operation) :
    (entries.replaceF fun entry => if name == entry.1 then some (entry.1, f entry) else none).lookup
      name = some (f (name, operation)) := by
  induction entries with
  | nil => simp at hfind
  | cons entry rest ih =>
    obtain ⟨known, other⟩ := entry
    by_cases hname : name = known
    · subst hname
      have hother : other = operation := by simpa using hfind
      simp [List.replaceF, hother]
    · have hne : (name == known) = false := beq_false_of_ne hname
      have hrest : rest.lookup name = some operation := by
        simpa [List.lookup_cons, hne] using hfind
      simpa [List.replaceF, hne, List.lookup_cons] using ih hrest

theorem Operations.select_replaceSelections {operations : Operations} {operation? : Option Name}
    {operation : Operation} (hselect : operations.select operation? = .ok operation)
    (selections : SelectionSet) :
    (operations.replaceSelections selections operation?).select operation? =
      .ok { operation with selections := selections } := by
  cases operations with
  | anonymous known =>
    have hknown : known = operation := by
      cases operation? <;> exact Except.ok.inj hselect
    subst hknown
    cases operation? <;> rfl
  | named entries =>
    cases operation? with
    | none =>
      match entries with
      | [] => simp [select, only] at hselect
      | [(name, known)] =>
        have hknown : known = operation := Except.ok.inj hselect
        subst hknown
        rfl
      | _ :: _ :: _ => simp [select, only] at hselect
    | some name =>
      simp only [select, withName] at hselect
      cases hfind : entries.lookup name with
      | none => simp [hfind] at hselect
      | some known =>
        have hknown : known = operation := by simpa [hfind] using hselect
        have hreplaced := lookup_replaceF hfind fun entry =>
          { entry.2 with selections := selections }
        simp only [replaceSelections, select, withName, Option.all_some, hreplaced, hknown]

theorem Document.rootSelections_withRoot {document : Document} {operation? : Option Name}
    {root : SelectionSet} (hroot : document.rootSelections operation? = .ok root)
    (selections : SelectionSet) :
    (document.withRoot operation? selections).rootSelections operation? = .ok selections := by
  cases hselect : document.operations.select operation? with
  | error fault => simp [rootSelections, hselect] at hroot
  | ok operation =>
    have hreplaced := Operations.select_replaceSelections hselect selections
    simp only [rootSelections, withRoot, hreplaced]

theorem Document.selectionsAt_of_root {document : Document} {operation? : Option Name}
    {root : SelectionSet} (hroot : document.rootSelections operation? = .ok root) (path : Path) :
    document.selectionsAt operation? path =
      (follow? document.fragments path.segments [root]).elim (.error (.fieldNotFound path))
        fun found => .ok found.flatten := by
  unfold selectionsAt
  rw [hroot]
  cases hfollow : follow? document.fragments path.segments [root] with
  | none => simp [hfollow, bind, Except.bind, throw, throwThe, MonadExceptOf.throw]
  | some found => simp [hfollow, bind, Except.bind, pure, Except.pure]

theorem Document.exists_rootSelections {document : Document} {operation? : Option Name} {path : Path}
    {merged : SelectionSet} (hmerged : document.selectionsAt operation? path = .ok merged) :
    ∃ root found, document.rootSelections operation? = .ok root ∧
      follow? document.fragments path.segments [root] = some found ∧ merged = found.flatten := by
  cases hroot : document.rootSelections operation? with
  | error fault => simp [selectionsAt, hroot, bind, Except.bind] at hmerged
  | ok root =>
    rw [selectionsAt_of_root hroot] at hmerged
    cases hfollow : follow? document.fragments path.segments [root] with
    | none => simp [hfollow] at hmerged
    | some found =>
      have hflatten : merged = found.flatten := by simpa [hfollow, eq_comm] using hmerged
      exact ⟨root, found, rfl, hfollow, hflatten⟩

/--
Response paths compose. From the selections at a path, the rest of a longer path leads to what the
longer path leads to, or to nothing if that is not found. Nothing is found beyond a path that leads
to nothing.
-/
theorem Document.selectionsAt_join (document : Document) (operation? : Option Name)
    (path rest : Path) :
    (∀ merged, document.selectionsAt operation? path = .ok merged →
      (∃ items, document.selectionsAt operation? (Path.join path rest) = .ok items ∧
        (document.withRoot operation? merged).selectionsAt operation? rest = .ok items) ∨
      (document.selectionsAt operation? (Path.join path rest) =
          .error (.fieldNotFound (Path.join path rest)) ∧
        (document.withRoot operation? merged).selectionsAt operation? rest =
          .error (.fieldNotFound rest))) ∧
    ∀ missing, document.selectionsAt operation? path = .error (.fieldNotFound missing) →
      document.selectionsAt operation? (Path.join path rest) =
        .error (.fieldNotFound (Path.join path rest)) := by
  constructor
  · intro merged hmerged
    obtain ⟨root, found, hroot, hfound, rfl⟩ := exists_rootSelections hmerged
    have hjoined := selectionsAt_of_root hroot (Path.join path rest)
    have hrest := selectionsAt_of_root (rootSelections_withRoot hroot found.flatten) rest
    have hfragments : (document.withRoot operation? found.flatten).fragments =
      document.fragments := rfl
    rw [Path.segments_join, follow?_append, hfound, Option.bind_some] at hjoined
    rw [hfragments, follow?_flatten (Path.segments_ne_nil rest)] at hrest
    rw [hjoined, hrest]
    cases follow? document.fragments rest.segments found with
    | none => exact .inr ⟨rfl, rfl⟩
    | some items => exact .inl ⟨items.flatten, rfl, rfl⟩
  · intro missing hmissing
    cases hroot : document.rootSelections operation? with
    | error fault =>
      have hfault : fault = .fieldNotFound missing := by
        simpa [selectionsAt, hroot, bind, Except.bind] using hmissing
      cases hselect : document.operations.select operation? <;>
        simp [rootSelections, hselect, hfault] at hroot
    | ok root =>
      have hpath := selectionsAt_of_root hroot path
      rw [hmissing] at hpath
      have hnone : follow? document.fragments path.segments [root] = none := by
        cases hfollow : follow? document.fragments path.segments [root] with
        | none => rfl
        | some found => simp [hfollow] at hpath
      rw [selectionsAt_of_root hroot, Path.segments_join, follow?_append, hnone]
      rfl

namespace Pets

/-- Owners of pets, with a fragment that spreads itself and one that is not defined. -/
def circle : Document :=
  ⟨.named [("Other", ⟨.query, [], [], []⟩),
      ("Circle", ⟨.query, [], [],
        [.field none "pet" [] [] [.spread "Loop" []], .spread "Gone" [],
          .field none "pet" [] [] [.field none "owner" [] [] [leaf "id"]]]⟩)],
    [("Loop", ⟨"Animal", [],
      [.field none "owner" [] [] [.spread "Loop" [], leaf "id"], .spread "Loop" []]⟩)]⟩

theorem circle_composes :
    circle.selectionsAt (some "Circle") "pet.owner" = .ok [.spread "Loop" [], leaf "id", leaf "id"] ∧
      circle.selectionsAt (some "Circle") "pet.owner.owner" = .ok [.spread "Loop" [], leaf "id"] ∧
      (circle.withRoot (some "Circle") [.spread "Loop" [], leaf "id", leaf "id"]).selectionsAt
        (some "Circle") "owner" = .ok [.spread "Loop" [], leaf "id"] ∧
      circle.selectionsAt (some "Circle") "pet." = .error (.fieldNotFound "pet.") ∧
      circle.selectionsAt (some "Circle") "pet..owner" = .error (.fieldNotFound "pet..owner") := by
  have howner : circle.selectionsAt (some "Circle") "pet.owner" =
      .ok [.spread "Loop" [], leaf "id", leaf "id"] := by cbv
  have hdeeper : circle.selectionsAt (some "Circle") "pet.owner.owner" =
      .ok [.spread "Loop" [], leaf "id"] := by cbv
  have hempty : circle.selectionsAt (some "Circle") "pet." = .error (.fieldNotFound "pet.") := by cbv
  have hjoin : Path.join "pet.owner" "owner" = "pet.owner.owner" := by cbv
  have hcomposed := (circle.selectionsAt_join (some "Circle") "pet.owner" "owner").1 _ howner
  have hnothing := (circle.selectionsAt_join (some "Circle") "pet." "owner").2 _ hempty
  rw [hjoin, hdeeper] at hcomposed
  refine ⟨howner, hdeeper, ?_, hempty, hnothing⟩
  rcases hcomposed with ⟨items, hitems, hrest⟩ | ⟨hlost, -⟩
  · rw [hrest, hitems]
  · cases hlost

end Pets

end QueryMask
