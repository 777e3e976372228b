import QueryMask.Mask.Policy

/-! Ready-made expansions of abstract fields. -/

namespace QueryMask

abbrev Answer := Except MaskError (List Path)

namespace Expansion

/-- Puts paths in front of those that an expansion ends with. -/
def withFront (front : List Path) : Expansion → Expansion
  | done answer => done (answer.map (front ++ ·))
  | ask type next => ask type fun answer => withFront front (next answer)

/-- Asks about types in turn and joins what is made of the answers; the first failure is final. -/
def forEach : List (Name × (Answer → Answer)) → Expansion
  | [] => done (.ok [])
  | (type, use) :: rest => ask type fun answer =>
    match use answer with
    | .ok paths => (forEach rest).withFront paths
    | .error error => done (.error error)

theorem run_withFront (compute : Name → Run (List Path)) (front : List Path)
    (expansion : Expansion) :
    (expansion.withFront front).run compute =
      expansion.run compute >>= fun later => pure (front ++ later) := by
  induction expansion with
  | done answer => cases answer <;> rfl
  | ask type next ih =>
    simp only [withFront, run, ih]
    cases h : ((next (compute type).outcome).run compute).outcome with
    | ok paths => simp [Run.bind_eq_of_ok, h]
    | error error => simp [Run.bind_eq_of_error, h]

/-- Questions in turn are runs in turn. -/
theorem run_forEach (compute : Name → Run (List Path)) (questions : List (Name × (Answer → Answer))) :
    (forEach questions).run compute =
      Run.concatMap (fun question : Name × (Answer → Answer) =>
        ⟨(compute question.1).calls, question.2 (compute question.1).outcome⟩) questions := by
  induction questions with
  | nil => rfl
  | cons question rest ih =>
    obtain ⟨type, use⟩ := question
    rw [Run.concatMap_cons, ← ih]
    cases h : use (compute type).outcome with
    | error error => simp [forEach, run, h, Run.bind_eq_of_error]
    | ok paths =>
      rw [Run.bind_eq_of_ok _ h]
      simp only [forEach, run, h, run_withFront]

end Expansion

namespace AbstractExpansion

def underSegment (segment : String) : Answer → Answer :=
  Except.map fun paths => paths.map (Path.join segment)

/-- Every possible type in order, under its discriminator; types without one are left out. -/
def eachPossible (discriminator : Name → Option String) : AbstractExpansion := fun field =>
  .forEach <| field.possibleTypes.filterMap fun type =>
    (discriminator type).map fun segment => (type, underSegment segment)

def typeName (type : Name) : Option String := some type

/-- Listed types have the listed discriminator, or none; all others their own name. -/
def byTable (table : List (Name × Option String)) (type : Name) : Option String :=
  (table.lookup type).getD (some type)

def forTypes (types : List Name) : AbstractExpansion := fun _ => .forEach (types.map (·, id))

/-- Turns a failure into a path that shows its code. -/
def showFailure (type : Name) : Answer → Answer
  | .ok paths => .ok (paths.map (Path.join type))
  | .error error => .ok [type ++ "!" ++ error.code]

/-- The answers of given types, each under its type, with failures shown as paths. -/
def attempts (types : List Name) : AbstractExpansion := fun _ =>
  .forEach (types.map fun type => (type, showFailure type))

def firstType : AbstractExpansion := fun field =>
  .forEach (field.possibleTypes.head?.toList.map (·, id))

def fixed (paths : List Path) : AbstractExpansion := fun _ => .done (.ok paths)

end AbstractExpansion

end QueryMask
