import QueryMask.Query.Document
import Mathlib.Order.Basic
import Mathlib.Tactic.Common

/-! Places of selections in a selection set with its fragments unfolded, and their document order. -/

namespace QueryMask

/--
Where a selection stands: its index, behind the indices of the inline fragments and spreads around
it. The order of places is the order of the document, a fragment standing where it is spread.
-/
abbrev Place := List Nat

/--
The selection at a place, inside inline fragments and fragment spreads only, with a type condition
that `enters` lets through.
-/
inductive Reached (fragments : Fragments) (enters : Option Name → Prop) :
    SelectionSet → Place → Selection → Prop where
  | here {selections index selection} (hget : selections[index]? = some selection) :
      Reached fragments enters selections [index] selection
  | inline {selections index condition? directives body place selection}
      (hget : selections[index]? = some (.inline condition? directives body))
      (henters : enters condition?) (hbody : Reached fragments enters body place selection) :
      Reached fragments enters selections (index :: place) selection
  | spread {selections index name directives fragment place selection}
      (hget : selections[index]? = some (.spread name directives))
      (hfind : fragments.find? name = some fragment) (henters : enters (some fragment.condition))
      (hbody : Reached fragments enters fragment.selections place selection) :
      Reached fragments enters selections (index :: place) selection

section Reached

variable {fragments : Fragments} {enters : Option Name → Prop} {first selection : Selection}
  {rest body : SelectionSet} {place : Place} {index : Nat}

theorem not_reached_nil : ¬ Reached fragments enters [] place selection := by
  intro h
  cases h <;> simp_all

theorem Reached.ne_nil {selections : SelectionSet}
    (h : Reached fragments enters selections place selection) : place ≠ [] := by
  cases h <;> simp

/-- Later selections are reached as if the first one were not there. -/
theorem reached_cons_succ :
    Reached fragments enters (first :: rest) ((index + 1) :: place) selection ↔
      Reached fragments enters rest (index :: place) selection := by
  constructor
  · intro h
    cases h with
    | here hget => exact .here (by simpa using hget)
    | inline hget henters hbody => exact .inline (by simpa using hget) henters hbody
    | spread hget hfind henters hbody => exact .spread (by simpa using hget) hfind henters hbody
  · intro h
    cases h with
    | here hget => exact .here (by simpa using hget)
    | inline hget henters hbody => exact .inline (by simpa using hget) henters hbody
    | spread hget hfind henters hbody => exact .spread (by simpa using hget) hfind henters hbody

theorem reached_field_zero {alias? : Option Name} {name : Name} {arguments : List Argument}
    {directives : List Directive} :
    Reached fragments enters (.field alias? name arguments directives body :: rest) (0 :: place)
      selection ↔ place = [] ∧ selection = .field alias? name arguments directives body := by
  constructor
  · intro h
    cases h with
    | here hget => exact ⟨rfl, by simpa using hget.symm⟩
    | inline hget => simp at hget
    | spread hget => simp at hget
  · rintro ⟨rfl, rfl⟩
    exact .here rfl

theorem reached_inline_zero {condition? : Option Name} {directives : List Directive} :
    Reached fragments enters (.inline condition? directives body :: rest) (0 :: place) selection ↔
      (place = [] ∧ selection = .inline condition? directives body) ∨
        (enters condition? ∧ Reached fragments enters body place selection) := by
  constructor
  · intro h
    cases h with
    | here hget => exact .inl ⟨rfl, by simpa using hget.symm⟩
    | inline hget henters hbody =>
      obtain ⟨rfl, -, rfl⟩ : condition? = _ ∧ directives = _ ∧ body = _ := by simpa using hget
      exact .inr ⟨henters, hbody⟩
    | spread hget => simp at hget
  · rintro (⟨rfl, rfl⟩ | ⟨henters, hbody⟩)
    · exact .here rfl
    · exact .inline rfl henters hbody

theorem reached_spread_zero {name : Name} {directives : List Directive} :
    Reached fragments enters (.spread name directives :: rest) (0 :: place) selection ↔
      (place = [] ∧ selection = .spread name directives) ∨
        ∃ fragment, fragments.find? name = some fragment ∧ enters (some fragment.condition) ∧
          Reached fragments enters fragment.selections place selection := by
  constructor
  · intro h
    cases h with
    | here hget => exact .inl ⟨rfl, by simpa using hget.symm⟩
    | inline hget => simp at hget
    | spread hget hfind henters hbody =>
      obtain ⟨rfl, -⟩ : name = _ ∧ directives = _ := by simpa using hget
      exact .inr ⟨_, hfind, henters, hbody⟩
  · rintro (⟨rfl, rfl⟩ | ⟨fragment, hfind, henters, hbody⟩)
    · exact .here rfl
    · exact .spread rfl hfind henters hbody

/-- A place has one selection. -/
theorem Reached.unique {selections : SelectionSet} {other : Selection}
    (h : Reached fragments enters selections place selection)
    (hother : Reached fragments enters selections place other) : selection = other := by
  induction h with
  | here hget =>
    cases hother with
    | here hget' => exact Option.some.inj (hget.symm.trans hget')
    | inline _ _ hbody => exact absurd rfl hbody.ne_nil
    | spread _ _ _ hbody => exact absurd rfl hbody.ne_nil
  | inline hget _ hbody ih =>
    cases hother with
    | here => exact absurd rfl hbody.ne_nil
    | inline hget' _ hbody' =>
      obtain ⟨-, -, rfl⟩ := Selection.inline.inj (Option.some.inj (hget.symm.trans hget'))
      exact ih hbody'
    | spread hget' => exact absurd (hget.symm.trans hget') (by simp)
  | spread hget hfind _ hbody ih =>
    cases hother with
    | here => exact absurd rfl hbody.ne_nil
    | inline hget' => exact absurd (hget.symm.trans hget') (by simp)
    | spread hget' hfind' _ hbody' =>
      obtain ⟨rfl, -⟩ := Selection.spread.inj (Option.some.inj (hget.symm.trans hget'))
      obtain rfl := Option.some.inj (hfind.symm.trans hfind')
      exact ih hbody'

end Reached

/-- A list that holds the items of all places once, in the order of their places. -/
def Placed {α : Type} (holds : Place → α → Prop) (items : List α) : Prop :=
  ∃ placed : List (Place × α), placed.Pairwise (fun earlier later => earlier.1 < later.1) ∧
    (∀ entry, entry ∈ placed ↔ holds entry.1 entry.2) ∧ placed.map (·.2) = items

section Placed

variable {α : Type} {holds first rest : Place → α → Prop} {item : α} {front later : List α}

theorem Placed.mem_iff {items : List α} (h : Placed holds items) :
    item ∈ items ↔ ∃ place, holds place item := by
  obtain ⟨placed, -, hmem, rfl⟩ := h
  simp [hmem]

theorem Placed.nil (hnone : ∀ place item, ¬ holds place item) : Placed holds [] :=
  ⟨[], by simp, by simpa using hnone, rfl⟩

theorem Placed.single (hone : ∀ place other, holds place other ↔ place = [] ∧ other = item) :
    Placed holds [item] :=
  ⟨[([], item)], by simp, by simp [hone, Prod.ext_iff], rfl⟩

/-- The place of a selection with one more selection in front. -/
def Place.shift : Place → Place
  | [] => []
  | index :: place => (index + 1) :: place

theorem Place.shift_lt {place other : Place} (h : place < other) : place.shift < other.shift := by
  cases place <;> cases other <;> simp_all [Place.shift, List.cons_lt_cons_iff]

/-- What the first selection contributes stands in front of all that the others contribute. -/
theorem Placed.append (hfirst : Placed first front) (hrest : Placed rest later)
    (hroot : ∀ item, ¬ rest [] item) (hnil : ∀ item, ¬ holds [] item)
    (hzero : ∀ place item, holds (0 :: place) item ↔ first place item)
    (hsucc : ∀ index place item, holds ((index + 1) :: place) item ↔ rest (index :: place) item) :
    Placed holds (front ++ later) := by
  obtain ⟨heads, hheads, hmemHeads, rfl⟩ := hfirst
  obtain ⟨tails, htails, hmemTails, rfl⟩ := hrest
  refine ⟨heads.map (fun entry => (0 :: entry.1, entry.2)) ++
    tails.map (fun entry => (entry.1.shift, entry.2)), ?_, ?_, by simp [Function.comp_def]⟩
  · refine List.pairwise_append.mpr ⟨?_, ?_, ?_⟩
    · exact List.pairwise_map.mpr (hheads.imp fun h => List.cons_lt_cons_iff.mpr (.inr ⟨rfl, h⟩))
    · exact List.pairwise_map.mpr (htails.imp Place.shift_lt)
    · intro head hhead tail htail
      obtain ⟨⟨place, item⟩, -, rfl⟩ := List.mem_map.mp hhead
      obtain ⟨⟨other, item'⟩, hother, rfl⟩ := List.mem_map.mp htail
      cases other with
      | nil => exact absurd ((hmemTails ([], item')).mp hother) (hroot item')
      | cons index other => exact List.cons_lt_cons_iff.mpr (.inl (Nat.succ_pos index))
  · rintro ⟨place, item⟩
    simp only [List.mem_append, List.mem_map, Prod.mk.injEq, hmemHeads, hmemTails, Prod.exists]
    rcases place with _ | ⟨_ | index, place⟩
    · simp only [reduceCtorEq, false_and, and_false, exists_false, false_or, hnil, iff_false]
      rintro ⟨place, other, hplace, hshift, rfl⟩
      cases place with
      | nil => exact hroot other hplace
      | cons index place => simp [Place.shift] at hshift
    · rw [hzero]
      constructor
      · rintro (⟨_, _, h, hplace, rfl⟩ | ⟨other, _, h, hshift, rfl⟩)
        · simp only [List.cons.injEq, true_and] at hplace
          exact hplace ▸ h
        · cases other <;> simp [Place.shift] at hshift
      · exact fun h => .inl ⟨place, item, h, rfl, rfl⟩
    · rw [hsucc]
      constructor
      · rintro (⟨_, _, h, hplace, rfl⟩ | ⟨other, _, h, hshift, rfl⟩)
        · simp at hplace
        · cases other with
          | nil => simp [Place.shift] at hshift
          | cons first other =>
            obtain ⟨rfl, rfl⟩ : first = index ∧ other = place := by
              simpa [Place.shift] using hshift
            exact h
      · exact fun h => .inr ⟨index :: place, item, h, rfl, rfl⟩

end Placed

end QueryMask
