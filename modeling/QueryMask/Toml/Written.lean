import QueryMask.Toml.Table

/-!
Documents as they are written. Names and values that are not well spelled have their place in them, so
that a document has its structure before any name or value of it is judged. Judging goes through the
document from front to back, and the first fault decides.
-/

namespace QueryMask

namespace Toml

/-- A name or a value between delimiters, or `none` where it is not well spelled. -/
abbrev Spelled (α : Type) := Option α

def Spelled.judge : Spelled α → Except Fault α
  | some content => .ok content
  | none => .error .malformed

abbrev WrittenKey := List (Spelled String)

/-- The key, whose names are judged before their number. -/
def WrittenKey.judge (names : WrittenKey) : Except Fault Key := do
  Key.ofNames (← names.mapM Spelled.judge)

inductive Written where
  | scalar (value : Spelled Scalar)
  | array (items : List Written)
  | inline (assignments : List (WrittenKey × Written))

mutual

def Written.judge : Written → Except Fault Node
  | .scalar value => Node.scalar <$> value.judge
  | .array items => Node.array <$> Written.judgeAll items
  | .inline assignments => Node.inline <$> Written.assignAll assignments []

def Written.judgeAll : List Written → Except Fault (List Node)
  | [] => .ok []
  | item :: rest => do
    let node ← item.judge
    return node :: (← Written.judgeAll rest)

/-- Takes in assignments, each with its key first, then its value, then the place of the key. -/
def Written.assignAll : List (WrittenKey × Written) → Entries → Except Fault Entries
  | [], entries => .ok entries
  | (names, value) :: rest, entries => do
    let key ← names.judge
    let node ← value.judge
    Written.assignAll rest (← entries.assign key node)

end

structure Section where
  isArray : Bool
  key : WrittenKey
  assignments : List (WrittenKey × Written)

/-- Takes in a section. A table finds its place before it is filled, an element of an array after. -/
def Section.addTo (part : Section) (entries : Entries) : Except Fault Entries := do
  let key ← part.key.judge
  if part.isArray then
    let element ← Written.assignAll part.assignments []
    entries.addElement key element
  else entries.addTable key (Written.assignAll part.assignments)

/-- The table of a document: assignments without a header, then the sections. -/
def Entries.ofParts (assignments : List (WrittenKey × Written)) (sections : List Section) :
    Except Fault Entries := do
  sections.foldlM (fun entries part => part.addTo entries) (← Written.assignAll assignments [])

end Toml

end QueryMask
