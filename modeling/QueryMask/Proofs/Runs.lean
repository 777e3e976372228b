import QueryMask.Mask.Run
import Mathlib.Tactic.Common

/-! When runs over lists succeed, with which results, and runs that stop before the depth is used up. -/

namespace QueryMask

theorem bind_eq_ok_iff {ε α β : Type} {first : Except ε α} {next : α → Except ε β} {result : β} :
    first >>= next = .ok result ↔ ∃ middle, first = .ok middle ∧ next middle = .ok result := by
  cases first <;> simp [bind, Except.bind]

theorem bind_eq_error_iff {ε α β : Type} {first : Except ε α} {next : α → Except ε β} {fault : ε} :
    first >>= next = .error fault ↔
      first = .error fault ∨ ∃ middle, first = .ok middle ∧ next middle = .error fault := by
  cases first <;> simp [bind, Except.bind]

namespace Run

variable {α β : Type}

/-- The items that a run ends with; a failed run has none. -/
def results (run : Run (List β)) : List β := run.outcome.toOption.getD []

theorem results_eq {run : Run (List β)} {items : List β} (h : run.outcome = .ok items) :
    run.results = items := by
  simp [results, h, Except.toOption]

theorem ofExcept_ok_bind (result : α) (next : α → Run β) : ofExcept (.ok result) >>= next = next result :=
  pure_bind result next

theorem ofExcept_error_bind (error : MaskError) (next : α → Run β) :
    (ofExcept (.error error) : Run α) >>= next = ofExcept (.error error) :=
  bind_eq_of_error next rfl

theorem outcome_bind_pure_eq_ok_iff {run : Run α} {f : α → β} {result : β} :
    (run >>= fun first => pure (f first)).outcome = .ok result ↔
      ∃ first, run.outcome = .ok first ∧ result = f first := by
  rw [outcome_bind, bind_eq_ok_iff]
  simp only [outcome_pure, Except.ok.injEq, eq_comm]

theorem outcome_concatMap_cons_eq_ok_iff {f : α → Run (List β)} {item : α} {rest : List α}
    {joined : List β} :
    (concatMap f (item :: rest)).outcome = .ok joined ↔
      ∃ first later, (f item).outcome = .ok first ∧ (concatMap f rest).outcome = .ok later ∧
        joined = first ++ later := by
  rw [concatMap_cons, outcome_bind, bind_eq_ok_iff]
  simp only [outcome_bind_pure_eq_ok_iff, exists_and_left]

/-- A run over a list succeeds if all its parts do, and joins what they end with. -/
theorem outcome_concatMap_eq_ok_iff {f : α → Run (List β)} {items : List α} {joined : List β} :
    (concatMap f items).outcome = .ok joined ↔
      (∀ item ∈ items, (f item).outcome = .ok (f item).results) ∧
        joined = items.flatMap fun item => (f item).results := by
  induction items generalizing joined with
  | nil => simp [eq_comm]
  | cons item rest ih =>
    simp only [outcome_concatMap_cons_eq_ok_iff, ih, List.forall_mem_cons, List.flatMap_cons]
    constructor
    · rintro ⟨first, later, hfirst, ⟨hrest, rfl⟩, rfl⟩
      rw [results_eq hfirst]
      exact ⟨⟨hfirst, hrest⟩, rfl⟩
    · rintro ⟨⟨hfirst, hrest⟩, rfl⟩
      exact ⟨_, _, hfirst, ⟨hrest, rfl⟩, rfl⟩

theorem exists_outcome_concatMap {f : α → Run (List β)} {items : List α}
    (h : ∀ item ∈ items, ∃ results, (f item).outcome = .ok results) :
    ∃ joined, (concatMap f items).outcome = .ok joined := by
  refine ⟨_, outcome_concatMap_eq_ok_iff.mpr ⟨fun item hitem => ?_, rfl⟩⟩
  obtain ⟨results, hresults⟩ := h item hitem
  rw [results_eq hresults, hresults]

theorem exists_of_concatMap_error {f : α → Run (List β)} {items : List α} {fault : MaskError}
    (h : (concatMap f items).outcome = .error fault) : ∃ item ∈ items, (f item).outcome = .error fault := by
  induction items with
  | nil => simp at h
  | cons item rest ih =>
    rw [concatMap_cons, outcome_bind, bind_eq_error_iff] at h
    rcases h with hfirst | ⟨first, -, hlater⟩
    · exact ⟨item, List.mem_cons_self, hfirst⟩
    · rw [outcome_bind, bind_eq_error_iff] at hlater
      rcases hlater with hrest | ⟨later, -, hdone⟩
      · obtain ⟨faulty, hmem, hfaulty⟩ := ih hrest
        exact ⟨faulty, List.mem_cons_of_mem item hmem, hfaulty⟩
      · simp at hdone

theorem outcome_bind_pure_eq_error_iff {run : Run α} {f : α → β} {fault : MaskError} :
    (run >>= fun first => pure (f first)).outcome = .error fault ↔ run.outcome = .error fault := by
  rw [outcome_bind, bind_eq_error_iff]
  simp

theorem concatMap_congr {f g : α → Run (List β)} {items : List α}
    (h : ∀ item ∈ items, f item = g item) : concatMap f items = concatMap g items := by
  induction items with
  | nil => rfl
  | cons item rest ih =>
    rw [List.forall_mem_cons] at h
    rw [concatMap_cons, concatMap_cons, h.1, ih h.2]

theorem concatMap_eq_of_forall₂ {γ : Type} {f : α → Run (List β)} {g : γ → Run (List β)} {items : List α}
    {others : List γ} (h : List.Forall₂ (fun item other => f item = g other) items others) :
    concatMap f items = concatMap g others := by
  induction h with
  | nil => rfl
  | cons hfirst _ ih => rw [concatMap_cons, concatMap_cons, hfirst, ih]

theorem concatMap_map {γ : Type} (f : β → Run (List γ)) (g : α → β) (items : List α) :
    concatMap f (items.map g) = concatMap (fun item => f (g item)) items := by
  induction items with
  | nil => rfl
  | cons item rest ih => rw [List.map_cons, concatMap_cons, concatMap_cons, ih]

section Yields

variable {rel : List β → List β → Prop}

/-- A relation between results that holds of equal ones, and still holds after prefixing and joining. -/
structure Congruent (rel : List β → List β → Prop) : Prop where
  refl : ∀ results, rel results results
  map : ∀ {results found} (f : β → β), rel results found → rel (results.map f) (found.map f)
  append : ∀ {first found later others}, rel first found → rel later others →
    rel (first ++ later) (found ++ others)

theorem congruent_eq : Congruent fun results found : List β => results = found where
  refl _ := rfl
  map _ h := by rw [h]
  append h hlater := by rw [h, hlater]

/-- The second run succeeds where the first one does, with related results. -/
def Yields (rel : List β → List β → Prop) (run other : Run (List β)) : Prop :=
  ∀ results, run.outcome = .ok results → ∃ found, other.outcome = .ok found ∧ rel results found

theorem Congruent.yields_refl (hrel : Congruent rel) (run : Run (List β)) : run.Yields rel run :=
  fun results hrun => ⟨results, hrun, hrel.refl results⟩

theorem Yields.bind_map {run other : Run (List β)} (h : run.Yields rel other) (hrel : Congruent rel)
    (f : β → β) : (run >>= fun results => pure (results.map f)).Yields rel
      (other >>= fun results => pure (results.map f)) := by
  intro mapped hmapped
  obtain ⟨results, hresults, rfl⟩ := outcome_bind_pure_eq_ok_iff.mp hmapped
  obtain ⟨found, hfound, hrelated⟩ := h results hresults
  exact ⟨found.map f, outcome_bind_pure_eq_ok_iff.mpr ⟨found, hfound, rfl⟩, hrel.map f hrelated⟩

theorem yields_concatMap (hrel : Congruent rel) {f g : α → Run (List β)} {items : List α}
    (h : ∀ item ∈ items, (f item).Yields rel (g item)) :
    (concatMap f items).Yields rel (concatMap g items) := by
  induction items with
  | nil => exact hrel.yields_refl _
  | cons item rest ih =>
    rw [List.forall_mem_cons] at h
    intro joined hjoined
    obtain ⟨first, later, hfirst, hlater, rfl⟩ := outcome_concatMap_cons_eq_ok_iff.mp hjoined
    obtain ⟨found, hfound, hfirstRel⟩ := h.1 first hfirst
    obtain ⟨others, hothers, hlaterRel⟩ := ih h.2 later hlater
    refine ⟨found ++ others, ?_, hrel.append hfirstRel hlaterRel⟩
    exact outcome_concatMap_cons_eq_ok_iff.mpr ⟨found, others, hfound, hothers, rfl⟩

end Yields

/-- The run is not cut off for want of depth. -/
def Ends (run : Run α) : Prop := run.outcome ≠ .error .endlessSelection

theorem ends_of_ok {run : Run α} {result : α} (h : run.outcome = .ok result) : run.Ends := by
  simp [Ends, h]

theorem Ends.left {run : Run α} {next : α → Run β} (h : (run >>= next).Ends) : run.Ends := by
  intro hend
  exact h (by rw [bind_eq_of_error next hend])

theorem Ends.right {run : Run α} {next : α → Run β} {result : α} (h : (run >>= next).Ends)
    (hok : run.outcome = .ok result) : (next result).Ends := by
  rw [bind_eq_of_ok next hok] at h
  exact h

/-- A run in turn that ends is the same when its parts change only where they do not end. -/
theorem bind_eq_of_ends {run other : Run α} {next later : α → Run β} (h : (run >>= next).Ends)
    (hrun : run.Ends → other = run) (hnext : ∀ result, (next result).Ends → later result = next result) :
    other >>= later = run >>= next := by
  rw [hrun h.left]
  cases hout : run.outcome with
  | error error => rw [bind_eq_of_error _ hout, bind_eq_of_error _ hout]
  | ok result => rw [bind_eq_of_ok _ hout, bind_eq_of_ok _ hout, hnext _ (h.right hout)]

theorem concatMap_eq_of_ends {f g : α → Run (List β)} {items : List α}
    (hparts : ∀ item ∈ items, (f item).Ends → g item = f item) (h : (concatMap f items).Ends) :
    concatMap g items = concatMap f items := by
  induction items with
  | nil => rfl
  | cons item rest ih =>
    rw [List.forall_mem_cons] at hparts
    refine bind_eq_of_ends h hparts.1 fun first hfirst => ?_
    exact bind_eq_of_ends hfirst (ih hparts.2) fun _ _ => rfl

end Run

end QueryMask
