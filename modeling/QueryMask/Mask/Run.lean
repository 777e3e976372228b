import QueryMask.Error

/-! Runs that record what they ask of a policy. -/

namespace QueryMask

/-- A call of the naming or the expansion of a policy, about a field of a parent type. -/
inductive PolicyCall where
  | naming (parent field : Name)
  | expansion (parent field : Name)
  deriving DecidableEq, Repr

/-- The calls of a run in order, up to a failure if there is one, and how it ends. -/
structure Run (α : Type) where
  calls : List PolicyCall
  outcome : Except MaskError α

namespace Run

def ofExcept (outcome : Except MaskError α) : Run α := ⟨[], outcome⟩

def call (record : PolicyCall) : Run Unit := ⟨[record], .ok ()⟩

def andThen (run : Run α) (next : α → Run β) : Run β :=
  match run.outcome with
  | .ok result => ⟨run.calls ++ (next result).calls, (next result).outcome⟩
  | .error error => ⟨run.calls, .error error⟩

instance : Monad Run where
  pure result := ofExcept (.ok result)
  bind := andThen

@[simp] theorem calls_pure (result : α) : (pure result : Run α).calls = [] := rfl

@[simp] theorem outcome_pure (result : α) : (pure result : Run α).outcome = .ok result := rfl

@[simp] theorem calls_ofExcept (outcome : Except MaskError α) : (ofExcept outcome).calls = [] := rfl

@[simp] theorem outcome_ofExcept (outcome : Except MaskError α) :
    (ofExcept outcome).outcome = outcome := rfl

theorem bind_eq_of_ok {run : Run α} {result : α} (next : α → Run β) (h : run.outcome = .ok result) :
    run >>= next = ⟨run.calls ++ (next result).calls, (next result).outcome⟩ := by
  change andThen run next = _
  simp [andThen, h]

theorem bind_eq_of_error {run : Run α} {error : MaskError} (next : α → Run β)
    (h : run.outcome = .error error) : run >>= next = ⟨run.calls, .error error⟩ := by
  change andThen run next = _
  simp [andThen, h]

/-- The outcome of two runs in turn is that of their outcomes. -/
theorem outcome_bind (run : Run α) (next : α → Run β) :
    (run >>= next).outcome = run.outcome >>= fun result => (next result).outcome := by
  cases h : run.outcome with
  | ok result => rw [bind_eq_of_ok next h]; rfl
  | error error => rw [bind_eq_of_error next h]; rfl

theorem bind_pure (run : Run α) : run >>= pure = run := by
  cases h : run.outcome with
  | ok result => simp [bind_eq_of_ok pure h, ← h]
  | error error => simp [bind_eq_of_error pure h, ← h]

theorem pure_bind (result : α) (next : α → Run β) : (pure result >>= next) = next result := by
  rw [bind_eq_of_ok next (outcome_pure result)]
  rfl

theorem bind_assoc (run : Run α) (next : α → Run β) (last : β → Run γ) :
    run >>= next >>= last = run >>= fun result => next result >>= last := by
  cases h : run.outcome with
  | error error => simp [bind_eq_of_error, h]
  | ok result =>
    cases h' : (next result).outcome with
    | error error => simp [bind_eq_of_ok, bind_eq_of_error, h, h']
    | ok result' => simp [bind_eq_of_ok, h, h']

instance : LawfulMonad Run := LawfulMonad.mk' Run bind_pure pure_bind bind_assoc

/-- Runs over a list and joins the results; the first failure is final. -/
def concatMap (f : α → Run (List β)) : List α → Run (List β)
  | [] => pure []
  | item :: rest => do
    let first ← f item
    let later ← concatMap f rest
    return first ++ later

@[simp] theorem concatMap_nil (f : α → Run (List β)) : concatMap f [] = pure [] := rfl

theorem concatMap_cons (f : α → Run (List β)) (item : α) (rest : List α) :
    concatMap f (item :: rest) =
      f item >>= fun first => concatMap f rest >>= fun later => pure (first ++ later) := rfl

end Run

end QueryMask
