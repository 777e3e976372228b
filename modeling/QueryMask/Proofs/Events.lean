import QueryMask.Mask.SelectedPaths
import QueryMask.Proofs.Chains
import QueryMask.Proofs.Runs
import Mathlib

/-! Events of runs, in the order of their trails: questions to a naming, and failures. A run asks the questions
among its events, up to the first failure. -/

namespace QueryMask

/--
One step into what a visit does. At the place of a field the index `0` is the field itself, and `index + 1` is
what is below it, on the possible type of that index; an object type is its own first possible type.
-/
structure Step where
  place : Place
  index : Nat

/-- The order of the document; a field comes before what is below it, and possible types come in order. -/
instance : LT Step where
  lt earlier later := earlier.place < later.place ∨ earlier.place = later.place ∧ earlier.index < later.index

theorem Step.lt_iff {earlier later : Step} :
    earlier < later ↔
      earlier.place < later.place ∨ earlier.place = later.place ∧ earlier.index < later.index := Iff.rfl

instance : Std.Asymm ((· < ·) : Step → Step → Prop) where
  asymm earlier later h h' := by
    rw [Step.lt_iff] at h h'
    rcases h with h | ⟨hplace, h⟩ <;> rcases h' with h' | ⟨hplace', h'⟩
    · exact lt_asymm h h'
    · exact lt_irrefl _ (hplace' ▸ h)
    · exact lt_irrefl _ (hplace ▸ h')
    · omega

/-- The steps from a visit to what happens in it. All that follows a common front stands together. -/
abbrev Trail := List Step

/-- What can happen in a visit: a field of the parent type needs a segment, or there is a failure. -/
inductive Event where
  | question (parent : Name) (field : AppliedField)
  | failure (fault : MaskError)

instance (system : TypeSystem) (field : AppliedField) : Decidable (field.IsLeaf system) :=
  inferInstanceAs (Decidable (_ ∨ _))

/-- A question about the segment of a field, and where it comes up. -/
@[ext] structure Question where
  trail : Trail
  parent : Name
  field : AppliedField

namespace Question

def event (question : Question) : Event := .question question.parent question.field

def behind (step : Step) (question : Question) : Question := { question with trail := step :: question.trail }

theorem eq_iff {question other : Question} :
    question = other ↔ question.trail = other.trail ∧ question.event = other.event := by
  rw [Question.ext_iff, event, event, Event.question.injEq]

theorem mem_map_behind {step : Step} {asked : List Question} {question : Question} :
    question ∈ asked.map (behind step) ↔
      ∃ rest, question.trail = step :: rest ∧ (⟨rest, question.parent, question.field⟩ : Question) ∈ asked := by
  rw [List.mem_map]
  constructor
  · rintro ⟨⟨rest, parent, field⟩, hmem, rfl⟩
    exact ⟨rest, rfl, hmem⟩
  · rintro ⟨rest, htrail, hmem⟩
    exact ⟨_, hmem, by rw [behind, ← htrail]⟩

/-- What is recorded of a question: the parent type and the field. -/
def subject (question : Question) : Name × Name := (question.parent, question.field.definition.name)

/-- The answer to a question about a field below which nothing is selected. -/
def lastWord? (system : TypeSystem) (naming : FieldNaming) (question : Question) : Option String :=
  if question.field.IsLeaf system then naming system question.parent question.field.definition else none

/-- The question comes up below the field that the other one is about. -/
def Under (inner outer : Question) : Prop :=
  ∃ front place index rest, outer.trail = front ++ [⟨place, 0⟩] ∧
    inner.trail = front ++ ⟨place, index + 1⟩ :: rest

end Question

/-- The questions to the naming that are among the calls. -/
def namings (calls : List PolicyCall) : List (Name × Name) :=
  calls.filterMap fun
    | .naming parent field => some (parent, field)
    | .expansion _ _ => none

theorem namings_append (calls more : List PolicyCall) :
    namings (calls ++ more) = namings calls ++ namings more := List.filterMap_append

/-- The path is the word, or the word is what follows its front. -/
def Path.EndsWith (path : Path) (word : String) : Prop :=
  path = word ∨ ∃ front, path = Path.join front word

theorem Path.EndsWith.join {path : Path} {word : String} (h : path.EndsWith word) (segment : String) :
    (Path.join segment path).EndsWith word := by
  rcases h with rfl | ⟨front, rfl⟩
  · exact .inr ⟨segment, rfl⟩
  · exact .inr ⟨Path.join segment front, by simp [Path.join, String.append_assoc]⟩

/-- No failure happens, all questions are asked, and the last words of the paths are answers to them. -/
structure Exhausts (system : TypeSystem) (naming : FieldNaming) (events : Trail → Event → Prop)
    (asked : List Question) (paths : List Path) : Prop where
  mem_iff : ∀ question, question ∈ asked ↔ events question.trail question.event
  no_failure : ∀ trail fault, ¬ events trail (.failure fault)
  ends : List.Forall₂ Path.EndsWith paths (asked.filterMap (Question.lastWord? system naming))

/-- The first failure happens at this trail, and the questions before it are asked. -/
structure StopsAt (events : Trail → Event → Prop) (asked : List Question) (trail : Trail)
    (fault : MaskError) : Prop where
  failure : events trail (.failure fault)
  first : ∀ other fault', events other (.failure fault') → ¬ other < trail
  mem_iff : ∀ question, question ∈ asked ↔ events question.trail question.event ∧ question.trail < trail

/-- The questions that a run asks, in the order in which they come up. -/
structure Asks (system : TypeSystem) (naming : FieldNaming) (events : Trail → Event → Prop)
    (run : Run (List Path)) (asked : List Question) : Prop where
  ordered : asked.Pairwise fun earlier later => earlier.trail < later.trail
  recorded : namings run.calls = asked.map Question.subject
  ok : ∀ paths, run.outcome = .ok paths → Exhausts system naming events asked paths
  error : ∀ fault, run.outcome = .error fault → ∃ trail, StopsAt events asked trail fault

namespace Asks

variable {system : TypeSystem} {naming : FieldNaming} {events later : Trail → Event → Prop}
  {run other : Run (List Path)} {asked more : List Question}

theorem congr (h : Asks system naming events run asked)
    (hiff : ∀ trail event, events trail event ↔ later trail event) : Asks system naming later run asked := by
  obtain rfl : events = later := by
    funext trail event
    exact propext (hiff trail event)
  exact h

theorem nil (hnone : ∀ trail event, ¬ events trail event) : Asks system naming events (pure []) [] where
  ordered := .nil
  recorded := rfl
  ok := by
    rintro paths hpaths
    obtain rfl := Except.ok.inj hpaths
    exact ⟨fun question => by simp [hnone], fun trail fault => hnone trail _, .nil⟩
  error fault hfault := by cases hfault

/-- A failure comes before everything else. -/
theorem stop (trail : Trail) {fault : MaskError} (hfailure : events trail (.failure fault))
    (hfirst : ∀ other event, events other event → ¬ other < trail) :
    Asks system naming events (.ofExcept (.error fault)) [] where
  ordered := .nil
  recorded := rfl
  ok paths hpaths := by cases hpaths
  error other hother := by
    obtain rfl := Except.error.inj hother
    refine ⟨trail, hfailure, fun other fault' => hfirst other _, fun question => ?_⟩
    simp only [List.not_mem_nil, false_iff, not_and]
    exact hfirst _ _

theorem happens (h : Asks system naming events run asked) {question : Question} (hmem : question ∈ asked) :
    events question.trail question.event := by
  cases hrun : run.outcome with
  | ok paths => exact ((h.ok paths hrun).mem_iff question).mp hmem
  | error fault =>
    obtain ⟨trail, hstop⟩ := h.error fault hrun
    exact ((hstop.mem_iff question).mp hmem).1

/-- A second run, with all its events after those of the first one, goes on unless there was a failure. -/
theorem append (h : Asks system naming events run asked) (hmore : Asks system naming later other more)
    (hbefore : ∀ trail event trail' event', events trail event → later trail' event' → trail < trail') :
    ∃ both, Asks system naming (fun trail event => events trail event ∨ later trail event)
      (run >>= fun front => other >>= fun back => pure (front ++ back)) both := by
  cases hrun : run.outcome with
  | error fault =>
    obtain ⟨trail, hstop⟩ := h.error fault hrun
    -- What comes up in the second run is after the failure.
    have hafter : ∀ trail' event, later trail' event → ¬ trail' < trail := fun trail' event hlater =>
      asymm (hbefore _ _ _ _ hstop.failure hlater)
    rw [Run.bind_eq_of_error _ hrun]
    refine ⟨asked, h.ordered, h.recorded, nofun, fun fault' hfault => ?_⟩
    obtain rfl := Except.error.inj hfault
    refine ⟨trail, .inl hstop.failure, ?_, fun question => ?_⟩
    · rintro trail' fault' (hevent | hlater)
      · exact hstop.first trail' fault' hevent
      · exact hafter _ _ hlater
    · rw [hstop.mem_iff]
      refine ⟨fun ⟨hevent, hlt⟩ => ⟨.inl hevent, hlt⟩, ?_⟩
      rintro ⟨hevent | hlater, hlt⟩
      · exact ⟨hevent, hlt⟩
      · exact absurd hlt (hafter _ _ hlater)
  | ok paths =>
    have hall := h.ok paths hrun
    have hordered : (asked ++ more).Pairwise fun earlier later => earlier.trail < later.trail :=
      List.pairwise_append.mpr ⟨h.ordered, hmore.ordered, fun question hquestion next hnext =>
        hbefore _ _ _ _ (h.happens hquestion) (hmore.happens hnext)⟩
    have hrecorded : namings (run.calls ++ other.calls) = (asked ++ more).map Question.subject := by
      rw [namings_append, h.recorded, hmore.recorded, List.map_append]
    rw [Run.bind_eq_of_ok _ hrun]
    refine ⟨asked ++ more, hordered, ?_, ?_, ?_⟩
    · cases hother : other.outcome with
      | error fault => rwa [Run.bind_eq_of_error _ hother]
      | ok found => simpa [Run.bind_eq_of_ok _ hother] using hrecorded
    · intro joined hjoined
      obtain ⟨found, hfound, rfl⟩ := Run.outcome_bind_pure_eq_ok_iff.mp hjoined
      have hrest := hmore.ok found hfound
      refine ⟨fun question => ?_, ?_, ?_⟩
      · rw [List.mem_append, hall.mem_iff, hrest.mem_iff]
      · rintro trail fault (hevent | hlater)
        · exact hall.no_failure trail fault hevent
        · exact hrest.no_failure trail fault hlater
      · rw [List.filterMap_append]
        exact List.rel_append hall.ends hrest.ends
    · intro fault hfault
      obtain ⟨trail, hstop⟩ := hmore.error fault (Run.outcome_bind_pure_eq_error_iff.mp hfault)
      refine ⟨trail, .inr hstop.failure, ?_, fun question => ?_⟩
      · rintro trail' fault' (hevent | hlater)
        · exact absurd hevent (hall.no_failure trail' fault')
        · exact hstop.first trail' fault' hlater
      · rw [List.mem_append, hall.mem_iff, hstop.mem_iff, or_and_right]
        refine or_congr_left ⟨fun hevent => ⟨hevent, ?_⟩, And.left⟩
        exact hbefore _ _ _ _ hevent hstop.failure

/-- The steps in front of all trails make no difference to a run. -/
theorem behind (h : Asks system naming events run asked) (step : Step) :
    Asks system naming (fun trail event => ∃ rest, trail = step :: rest ∧ events rest event) run
      (asked.map (Question.behind step)) where
  ordered := List.pairwise_map.mpr (h.ordered.imp fun hlt => List.cons_lt_cons_iff.mpr (.inr ⟨rfl, hlt⟩))
  recorded := by rw [h.recorded, List.map_map]; rfl
  ok paths hpaths := by
    have hall := h.ok paths hpaths
    refine ⟨fun question => ?_, ?_, ?_⟩
    · simp only [Question.mem_map_behind, hall.mem_iff]
      rfl
    · rintro trail fault ⟨rest, -, hevent⟩
      exact hall.no_failure rest fault hevent
    · rw [List.filterMap_map]
      exact hall.ends
  error fault hfault := by
    obtain ⟨trail, hstop⟩ := h.error fault hfault
    have hlt : ∀ rest, step :: rest < step :: trail ↔ rest < trail := fun rest => by
      simp
    refine ⟨step :: trail, ⟨trail, rfl, hstop.failure⟩, ?_, fun question => ?_⟩
    · rintro other fault' ⟨rest, rfl, hevent⟩
      rw [hlt]
      exact hstop.first rest fault' hevent
    · simp only [Question.mem_map_behind, hstop.mem_iff]
      constructor
      · rintro ⟨rest, htrail, hevent, hbefore⟩
        exact ⟨⟨rest, htrail, hevent⟩, htrail ▸ (hlt rest).mpr hbefore⟩
      · rintro ⟨⟨rest, htrail, hevent⟩, hbefore⟩
        exact ⟨rest, htrail, hevent, (hlt rest).mp (htrail ▸ hbefore)⟩

/-- A segment in front of all paths leaves their last words as they are. -/
theorem join (h : Asks system naming events run asked) (segment : String) :
    Asks system naming events (run >>= fun below => pure (below.map (Path.join segment))) asked where
  ordered := h.ordered
  recorded := by
    rw [← h.recorded]
    cases hrun : run.outcome with
    | ok below => simp [Run.bind_eq_of_ok _ hrun]
    | error fault => rw [Run.bind_eq_of_error _ hrun]
  ok paths hpaths := by
    obtain ⟨below, hbelow, rfl⟩ := Run.outcome_bind_pure_eq_ok_iff.mp hpaths
    have hall := h.ok below hbelow
    exact ⟨hall.mem_iff, hall.no_failure,
      List.forall₂_map_left_iff.mpr (hall.ends.imp fun _ _ hends => hends.join segment)⟩
  error fault hfault := h.error fault (Run.outcome_bind_pure_eq_error_iff.mp hfault)

/-- Calls of the expansion are no questions to the naming. -/
theorem expansion (h : Asks system naming events run asked) (parent field : Name) :
    Asks system naming events (Run.call (.expansion parent field) >>= fun _ => run) asked := by
  rw [Run.bind_eq_of_ok _ rfl]
  exact ⟨h.ordered, h.recorded, h.ok, h.error⟩

/-- A question comes before a run; the answer, if it is a last word, comes before the paths of the run. -/
theorem question (h : Asks system naming events run asked) (question : Question)
    (hbefore : ∀ trail event, events trail event → question.trail < trail) :
    Asks system naming
      (fun trail event => (trail = question.trail ∧ event = question.event) ∨ events trail event)
      (Run.call (.naming question.parent question.field.definition.name) >>= fun _ =>
        run >>= fun below => pure ((question.lastWord? system naming).toList ++ below))
      (question :: asked) where
  ordered := by
    refine List.pairwise_cons.mpr ⟨fun next hnext => ?_, h.ordered⟩
    exact hbefore _ _ (h.happens hnext)
  recorded := by
    rw [Run.bind_eq_of_ok _ rfl, List.map_cons, ← h.recorded]
    cases hrun : run.outcome with
    | ok below => rw [Run.bind_eq_of_ok _ hrun, Run.calls_pure, List.append_nil]; rfl
    | error fault => rw [Run.bind_eq_of_error _ hrun]; rfl
  ok paths hpaths := by
    rw [Run.bind_eq_of_ok _ rfl] at hpaths
    obtain ⟨below, hbelow, rfl⟩ := Run.outcome_bind_pure_eq_ok_iff.mp hpaths
    have hall := h.ok below hbelow
    refine ⟨fun other => ?_, ?_, ?_⟩
    · rw [List.mem_cons, Question.eq_iff, hall.mem_iff]
    · rintro trail fault (⟨-, hevent⟩ | hevent)
      · cases hevent
      · exact hall.no_failure trail fault hevent
    · have hasked : (question :: asked).filterMap (Question.lastWord? system naming) =
          (question.lastWord? system naming).toList ++ asked.filterMap (Question.lastWord? system naming) := by
        cases hword : question.lastWord? system naming <;> simp [hword]
      rw [hasked]
      exact List.rel_append (List.forall₂_same.mpr fun word _ => .inl rfl) hall.ends
  error fault hfault := by
    rw [Run.bind_eq_of_ok _ rfl] at hfault
    obtain ⟨trail, hstop⟩ := h.error fault (Run.outcome_bind_pure_eq_error_iff.mp hfault)
    refine ⟨trail, .inr hstop.failure, ?_, fun other => ?_⟩
    · rintro other fault' (⟨-, hevent⟩ | hevent)
      · cases hevent
      · exact hstop.first other fault' hevent
    · rw [List.mem_cons, Question.eq_iff, hstop.mem_iff, or_and_right]
      refine or_congr_left ⟨fun hevent => ⟨hevent, ?_⟩, And.left⟩
      exact hevent.1 ▸ hbefore _ _ hstop.failure

theorem concatMap {ι : Type} {items : List ι} {f : ι → Run (List Path)} {before : ι → ι → Prop}
    {events : ι → Trail → Event → Prop} (hitems : items.Pairwise before)
    (heach : ∀ item ∈ items, ∃ asked, Asks system naming (events item) (f item) asked)
    (hbefore : ∀ item next, before item next → ∀ trail event trail' event',
      events item trail event → events next trail' event' → trail < trail') :
    ∃ asked, Asks system naming (fun trail event => ∃ item ∈ items, events item trail event)
      (Run.concatMap f items) asked := by
  induction items with
  | nil => exact ⟨[], .nil (by simp)⟩
  | cons item rest ih =>
    obtain ⟨hfirst, hrest⟩ := List.pairwise_cons.mp hitems
    rw [List.forall_mem_cons] at heach
    obtain ⟨asked, hasked⟩ := heach.1
    obtain ⟨more, hmore⟩ := ih hrest heach.2
    obtain ⟨both, hboth⟩ := hasked.append hmore fun trail event trail' event' hevent ⟨next, hnext, hlater⟩ =>
      hbefore item next (hfirst next hnext) _ _ _ _ hevent hlater
    exact ⟨both, hboth.congr fun trail event => by simp⟩

end Asks

theorem Question.Under.lt {inner outer : Question} (h : inner.Under outer) : outer.trail < inner.trail := by
  obtain ⟨front, place, index, rest, houter, hinner⟩ := h
  rw [houter, hinner]
  refine List.append_left_lt (List.cons_lt_cons_iff.mpr (.inl (.inr ⟨rfl, Nat.succ_pos index⟩)))

/-- Nothing behind the trail of the failure is asked. -/
theorem StopsAt.not_behind {events : Trail → Event → Prop} {asked : List Question} {trail : Trail}
    {fault : MaskError} (h : StopsAt events asked trail fault) {question : Question} (hmem : question ∈ asked) :
    ¬ trail <+: question.trail := by
  rintro ⟨rest, htrail⟩
  have hlt := ((h.mem_iff question).mp hmem).2
  rw [← htrail] at hlt
  exact List.not_lt.mpr List.le_append_left hlt

end QueryMask
