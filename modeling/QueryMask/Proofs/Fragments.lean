import QueryMask.Query.Document
import QueryMask.Proofs.SelectionSets
import Mathlib.Logic.Relation
import Mathlib.Order.Basic
import Mathlib.Tactic.Common

/-! Fragments that do not reach themselves, and how deep selection sets nest through them. -/

namespace QueryMask

namespace Fragments

theorem mem_of_find? {fragments : Fragments} {name : Name} {fragment : Fragment}
    (h : fragments.find? name = some fragment) : (name, fragment) ∈ fragments := by
  obtain ⟨before, after, hsplit, -⟩ := List.lookup_eq_some_iff.mp h
  simp [hsplit]

def conditions (fragments : Fragments) : List Name :=
  fragments.flatMap fun entry => entry.2.condition :: SelectionSet.conditions entry.2.selections

theorem conditions_subset {fragments : Fragments} {name : Name} {fragment : Fragment}
    (h : fragments.find? name = some fragment) :
    fragment.condition :: SelectionSet.conditions fragment.selections ⊆ fragments.conditions :=
  fun _ hcondition => List.mem_flatMap.mpr ⟨_, mem_of_find? h, hcondition⟩

/-- Fragments with the same names and conditions, and with related selections. -/
def Alike (rel : SelectionSet → SelectionSet → Prop) (fragments others : Fragments) : Prop :=
  ∀ name, Option.Rel (fun fragment other => fragment.condition = other.condition ∧
    rel fragment.selections other.selections) (fragments.find? name) (others.find? name)

section Alike

variable {rel : SelectionSet → SelectionSet → Prop} {fragments others : Fragments} {name : Name}

theorem Alike.exists_of_find? (h : fragments.Alike rel others) {fragment : Fragment}
    (hfind : fragments.find? name = some fragment) :
    ∃ other, others.find? name = some other ∧ fragment.condition = other.condition ∧
      rel fragment.selections other.selections := by
  have hname := h name
  rw [hfind] at hname
  generalize others.find? name = other? at hname ⊢
  cases hname with
  | some hrelated => exact ⟨_, rfl, hrelated⟩

theorem Alike.find?_of_none (h : fragments.Alike rel others) (hfind : fragments.find? name = none) :
    others.find? name = none := by
  have hname := h name
  rw [hfind] at hname
  generalize others.find? name = other? at hname ⊢
  cases hname with
  | none => rfl

theorem Alike.exists_of_find?_other (h : fragments.Alike rel others) {other : Fragment}
    (hfind : others.find? name = some other) :
    ∃ fragment, fragments.find? name = some fragment ∧ rel fragment.selections other.selections := by
  have hname := h name
  rw [hfind] at hname
  generalize fragments.find? name = fragment? at hname ⊢
  cases hname with
  | some hrelated => exact ⟨_, rfl, hrelated.2⟩

theorem alike_nil : Alike rel [] [] := fun _ => .none

theorem Alike.cons (h : fragments.Alike rel others) {fragment other : Fragment}
    (hcondition : fragment.condition = other.condition)
    (hselections : rel fragment.selections other.selections) :
    Alike rel ((name, fragment) :: fragments) ((name, other) :: others) := by
  intro asked
  unfold find?
  rw [List.lookup_cons, List.lookup_cons]
  cases asked == name with
  | true => exact .some ⟨hcondition, hselections⟩
  | false => exact h asked

end Alike

/-- Fragment `outer` spreads fragment `inner` in its selections, at any depth. -/
def Spreads (fragments : Fragments) (outer inner : Name) : Prop :=
  ∃ fragment, fragments.find? outer = some fragment ∧
    inner ∈ SelectionSet.spreads fragment.selections

/-- No fragment reaches itself, through spreads, inline fragments and nested fields. -/
def Acyclic (fragments : Fragments) : Prop :=
  ∀ name, ¬ Relation.TransGen fragments.Spreads name name

/-- A rank that falls with every spread rules out cycles. -/
theorem acyclic_of_rank {fragments : Fragments} (rank : Name → Nat)
    (hrank : ∀ outer inner, fragments.Spreads outer inner → rank inner < rank outer) :
    fragments.Acyclic := by
  intro name hcycle
  have hfall : ∀ {outer inner}, Relation.TransGen fragments.Spreads outer inner →
      rank inner < rank outer := by
    intro outer inner hreach
    induction hreach with
    | single h => exact hrank _ _ h
    | tail _ h ih => exact Nat.lt_trans (hrank _ _ h) ih
  exact Nat.lt_irrefl _ (hfall hcycle)

theorem acyclic_nil : Acyclic [] :=
  acyclic_of_rank (fun _ => 0) fun _ _ ⟨_, hfind, _⟩ => by simp [find?] at hfind

/-- The selections reach none of the active fragments. -/
def Fresh (fragments : Fragments) (active : List Name) (selections : SelectionSet) : Prop :=
  ∀ name ∈ active, ∀ first ∈ SelectionSet.spreads selections,
    ¬ Relation.ReflTransGen fragments.Spreads first name

section Fresh

variable {fragments : Fragments} {active : List Name} {selections part : SelectionSet}

theorem fresh_nil : fragments.Fresh [] selections := by
  intro name hname
  simp at hname

theorem Fresh.mono (h : fragments.Fresh active selections)
    (hsub : SelectionSet.spreads part ⊆ SelectionSet.spreads selections) :
    fragments.Fresh active part :=
  fun name hname first hfirst => h name hname first (hsub hfirst)

theorem Fresh.rest {selection : Selection} (h : fragments.Fresh active (selection :: part)) :
    fragments.Fresh active part :=
  h.mono (by simp [SelectionSet.spreads])

theorem Fresh.singleton {selection : Selection} (h : fragments.Fresh active selections)
    (hmem : selection ∈ selections) : fragments.Fresh active [selection] := by
  refine h.mono fun name hname => ?_
  rw [SelectionSet.spreads, SelectionSet.spreads, List.append_nil] at hname
  induction selections with
  | nil => simp at hmem
  | cons first rest ih =>
    rw [SelectionSet.spreads, List.mem_append]
    rcases List.mem_cons.mp hmem with rfl | hmem
    · exact .inl hname
    · exact .inr (ih h.rest hmem)

theorem Fresh.inline {condition? : Option Name} {directives : List Directive}
    (h : fragments.Fresh active (.inline condition? directives selections :: part)) :
    fragments.Fresh active selections :=
  h.mono (by simp [SelectionSet.spreads, Selection.spreads])

theorem Fresh.field {alias? : Option Name} {name : Name} {arguments : List Argument}
    {directives : List Directive}
    (h : fragments.Fresh active (.field alias? name arguments directives selections :: part)) :
    fragments.Fresh active selections :=
  h.mono (by simp [SelectionSet.spreads, Selection.spreads])

theorem Fresh.not_active {name : Name} {directives : List Directive}
    (h : fragments.Fresh active (.spread name directives :: part)) :
    active.contains name = false := by
  by_contra hactive
  have hmem : name ∈ active := by simpa using hactive
  exact h name hmem name (by simp [SelectionSet.spreads, Selection.spreads]) .refl

/-- Entering a fragment keeps the active ones out of reach, and adds one that is. -/
theorem Fresh.spread (hacyclic : fragments.Acyclic) {name : Name} {directives : List Directive}
    {fragment : Fragment} (hfind : fragments.find? name = some fragment)
    (h : fragments.Fresh active (.spread name directives :: part)) :
    fragments.Fresh (name :: active) fragment.selections := by
  intro other hother first hfirst hreach
  have hstep : fragments.Spreads name first := ⟨fragment, hfind, hfirst⟩
  rcases List.mem_cons.mp hother with rfl | hother
  · exact hacyclic other (Relation.TransGen.head' hstep hreach)
  · exact h other hother name (by simp [SelectionSet.spreads, Selection.spreads])
      (hreach.head hstep)

theorem fresh_body (hacyclic : fragments.Acyclic) {name : Name} {fragment : Fragment}
    (hfind : fragments.find? name = some fragment) :
    fragments.Fresh [name] fragment.selections :=
  Fresh.spread hacyclic hfind (fresh_nil : fragments.Fresh [] [.spread name []])

end Fresh

/-- The selections unfold to an end, with at most `depth` selection sets inside one another. -/
inductive EndsWithin (fragments : Fragments) : Nat → SelectionSet → Prop where
  | nil {depth} : EndsWithin fragments (depth + 1) []
  | leaf {depth alias? name arguments directives rest}
      (hrest : EndsWithin fragments (depth + 1) rest) :
      EndsWithin fragments (depth + 1) (.field alias? name arguments directives [] :: rest)
  | field {depth alias? name arguments directives selections rest}
      (hbelow : EndsWithin fragments depth selections)
      (hrest : EndsWithin fragments (depth + 1) rest) :
      EndsWithin fragments (depth + 1) (.field alias? name arguments directives selections :: rest)
  | unknown {depth name directives rest} (hfind : fragments.find? name = none)
      (hrest : EndsWithin fragments depth rest) :
      EndsWithin fragments depth (.spread name directives :: rest)
  | known {depth name directives fragment rest} (hfind : fragments.find? name = some fragment)
      (hbody : EndsWithin fragments depth fragment.selections)
      (hrest : EndsWithin fragments depth rest) :
      EndsWithin fragments depth (.spread name directives :: rest)
  | inline {depth condition? directives selections rest}
      (hbody : EndsWithin fragments depth selections) (hrest : EndsWithin fragments depth rest) :
      EndsWithin fragments depth (.inline condition? directives selections :: rest)

namespace EndsWithin

variable {fragments : Fragments} {depth deeper : Nat} {selections : SelectionSet}

theorem pos (h : EndsWithin fragments depth selections) : 0 < depth := by
  induction h <;> omega

theorem mono (h : EndsWithin fragments depth selections) (hle : depth ≤ deeper) :
    EndsWithin fragments deeper selections := by
  induction h generalizing deeper with
  | nil =>
    obtain ⟨depth, rfl⟩ := Nat.exists_eq_add_of_lt (Nat.lt_of_lt_of_le (Nat.succ_pos _) hle)
    exact (Nat.zero_add depth).symm ▸ .nil
  | leaf _ ihrest =>
    obtain ⟨depth, rfl⟩ : ∃ d, deeper = d + 1 := ⟨deeper - 1, by omega⟩
    exact .leaf (ihrest hle)
  | field _ _ ih ihrest =>
    obtain ⟨depth, rfl⟩ : ∃ d, deeper = d + 1 := ⟨deeper - 1, by omega⟩
    exact .field (ih (by omega)) (ihrest hle)
  | unknown hfind _ ihrest => exact .unknown hfind (ihrest hle)
  | known hfind _ _ ih ihrest => exact .known hfind (ih hle) (ihrest hle)
  | inline _ _ ih ihrest => exact .inline (ih hle) (ihrest hle)

theorem singleton {selection : Selection}
    (h : EndsWithin fragments depth selections) (hmem : selection ∈ selections) :
    EndsWithin fragments depth [selection] := by
  have hnil : EndsWithin fragments depth [] := by
    obtain ⟨depth, rfl⟩ := Nat.exists_eq_add_one.mpr h.pos
    exact .nil
  induction h with
  | nil => simp at hmem
  | leaf _ ihrest =>
    rcases List.mem_cons.mp hmem with rfl | hmem
    · exact .leaf hnil
    · exact ihrest hmem hnil
  | field hbelow _ _ ihrest =>
    rcases List.mem_cons.mp hmem with rfl | hmem
    · exact .field hbelow hnil
    · exact ihrest hmem hnil
  | unknown hfind _ ihrest =>
    rcases List.mem_cons.mp hmem with rfl | hmem
    · exact .unknown hfind hnil
    · exact ihrest hmem hnil
  | known hfind hbody _ _ ihrest =>
    rcases List.mem_cons.mp hmem with rfl | hmem
    · exact .known hfind hbody hnil
    · exact ihrest hmem hnil
  | inline hbody _ _ ihrest =>
    rcases List.mem_cons.mp hmem with rfl | hmem
    · exact .inline hbody hnil
    · exact ihrest hmem hnil

end EndsWithin

def LevelsWithin (fragments : Fragments) (levels : Nat) : Prop :=
  ∀ name fragment, fragments.find? name = some fragment →
    SelectionSet.levels fragment.selections ≤ levels

/-- Only inactive fragments can still be entered, each for its own levels. -/
theorem Acyclic.endsWithin_active {fragments : Fragments} (hacyclic : fragments.Acyclic)
    {levels : Nat} (hlevels : fragments.LevelsWithin levels) (active : List Name)
    (selections : SelectionSet) (hfresh : fragments.Fresh active selections) :
    fragments.EndsWithin (fragments.inactive active * levels + SelectionSet.levels selections)
      selections := by
  induction hcount : fragments.inactive active using Nat.strongRecOn
    generalizing active selections with
  | ind count ih =>
    subst hcount
    induction selections using SelectionSet.induction with
    | nil => exact .nil
    | field alias? name arguments directives selections rest ihbelow ihrest =>
      have hrest := ihrest hfresh.rest
      have hbelow := ihbelow hfresh.field
      obtain ⟨depth, hdepth⟩ : ∃ depth, fragments.inactive active * levels + SelectionSet.levels
          (.field alias? name arguments directives selections :: rest) = depth + 1 :=
        Nat.exists_eq_add_one.mpr (Nat.lt_of_lt_of_le (SelectionSet.levels_pos _) (Nat.le_add_left _ _))
      rw [hdepth]
      simp only [SelectionSet.levels, Selection.levels] at hdepth
      cases selections with
      | nil => exact .leaf (hrest.mono (by omega))
      | cons first others =>
        simp only [List.isEmpty_cons, Bool.false_eq_true, if_false] at hdepth
        exact .field (hbelow.mono (by omega)) (hrest.mono (by omega))
    | spread name directives rest ihrest =>
      have hrest := ihrest hfresh.rest
      simp only [SelectionSet.levels, Selection.levels]
      cases hfind : fragments.find? name with
      | none => exact .unknown hfind (hrest.mono (by omega))
      | some fragment =>
        have hfewer := Fragments.inactive_cons_lt hfind hfresh.not_active
        have hbody := ih _ hfewer (name :: active) fragment.selections (hfresh.spread hacyclic hfind) rfl
        have hlimit := hlevels name fragment hfind
        have hroom := Nat.mul_le_mul_right levels (Nat.succ_le_of_lt hfewer)
        rw [Nat.succ_mul] at hroom
        exact .known hfind (hbody.mono (by omega)) (hrest.mono (by omega))
    | inline condition? directives selections rest ihbody ihrest =>
      have hrest := ihrest hfresh.rest
      have hbody := ihbody hfresh.inline
      simp only [SelectionSet.levels, Selection.levels]
      exact .inline (hbody.mono (by omega)) (hrest.mono (by omega))

/--
Induction along a traversal that keeps the entered fragments: a fragment is only entered while it is
not active.
-/
@[elab_as_elim]
theorem traversal (fragments : Fragments) {motive : List Name → SelectionSet → Prop}
    (nil : ∀ active, motive active [])
    (field : ∀ active alias? name arguments directives selections rest, motive active rest →
      motive active (.field alias? name arguments directives selections :: rest))
    (spread : ∀ active name directives rest,
      (∀ fragment, fragments.find? name = some fragment → active.contains name = false →
        motive (name :: active) fragment.selections) →
      motive active rest → motive active (.spread name directives :: rest))
    (inline : ∀ active condition? directives selections rest, motive active selections →
      motive active rest → motive active (.inline condition? directives selections :: rest))
    (active : List Name) (selections : SelectionSet) : motive active selections := by
  induction hcount : fragments.inactive active using Nat.strongRecOn generalizing active selections with
  | ind count ih =>
    subst hcount
    induction selections using SelectionSet.induction with
    | nil => exact nil active
    | field alias? name arguments directives selections rest _ ihrest =>
      exact field _ _ _ _ _ _ _ ihrest
    | spread name directives rest ihrest =>
      exact spread _ _ _ _ (fun fragment hfind hnew =>
        ih _ (Fragments.inactive_cons_lt hfind hnew) (name :: active) fragment.selections rfl) ihrest
    | inline condition? directives selections rest ihbody ihrest =>
      exact inline _ _ _ _ _ ihbody ihrest

@[simp] theorem inactive_nil (fragments : Fragments) : fragments.inactive [] = fragments.length := by
  simp [inactive]

/-- Each fragment adds its own levels at most once. -/
theorem Acyclic.endsWithin {fragments : Fragments} (hacyclic : fragments.Acyclic) {levels : Nat}
    (hlevels : fragments.LevelsWithin levels) {selections : SelectionSet}
    (hselections : SelectionSet.levels selections ≤ levels) :
    fragments.EndsWithin ((fragments.length + 1) * levels) selections := by
  have h := hacyclic.endsWithin_active hlevels [] selections fresh_nil
  rw [inactive_nil] at h
  exact h.mono (by rw [Nat.succ_mul]; omega)

theorem exists_levelsWithin (fragments : Fragments) : ∃ levels, fragments.LevelsWithin levels := by
  refine ⟨(fragments.map fun entry => SelectionSet.levels entry.2.selections).sum, ?_⟩
  intro name fragment hfind
  obtain ⟨before, after, hsplit, -⟩ := List.lookup_eq_some_iff.mp hfind
  simp only [hsplit, List.map_append, List.map_cons, List.sum_append, List.sum_cons]
  omega

/--
Induction over selections with the fragments in them unfolded: a spread may assume the statement of
the selections of its fragment.
-/
@[elab_as_elim]
theorem Acyclic.induction {fragments : Fragments} (hacyclic : fragments.Acyclic)
    {motive : SelectionSet → Prop} (nil : motive [])
    (field : ∀ alias? name arguments directives selections rest, motive selections → motive rest →
      motive (.field alias? name arguments directives selections :: rest))
    (unknown : ∀ name directives rest, fragments.find? name = none → motive rest →
      motive (.spread name directives :: rest))
    (known : ∀ name directives fragment rest, fragments.find? name = some fragment →
      motive fragment.selections → motive rest → motive (.spread name directives :: rest))
    (inline : ∀ condition? directives selections rest, motive selections → motive rest →
      motive (.inline condition? directives selections :: rest)) (selections : SelectionSet) :
    motive selections := by
  obtain ⟨levels, hlevels⟩ := fragments.exists_levelsWithin
  obtain ⟨depth, hends⟩ : ∃ depth, fragments.EndsWithin depth selections :=
    ⟨_, hacyclic.endsWithin_active hlevels [] selections fresh_nil⟩
  induction hends with
  | nil => exact nil
  | leaf _ ihrest => exact field _ _ _ _ _ _ nil ihrest
  | field _ _ ih ihrest => exact field _ _ _ _ _ _ ih ihrest
  | unknown hfind _ ihrest => exact unknown _ _ _ hfind ihrest
  | known hfind _ _ ih ihrest => exact known _ _ _ _ hfind ih ihrest
  | inline _ _ ih ihrest => exact inline _ _ _ _ ih ihrest

end Fragments

end QueryMask
