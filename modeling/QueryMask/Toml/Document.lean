import QueryMask.Toml.Values

/-! TOML documents, version 1.1: from lines to one table. -/

namespace QueryMask

namespace Toml

inductive Line where
  | empty
  | assignment (key : WrittenKey) (value : Written)
  | header (isArray : Bool) (key : WrittenKey)

def headerClose (isArray : Bool) : Reader Unit := Reader.word (if isArray then [']', ']'] else [']'])

/-- The rest of a line up to its comment, whatever is in it. Strings in it may go on over lines. -/
def restOfLine : Reader Unit := do
  let _ ← Reader.many (unjudgedString <|> (do
    let _ ← atom) <|> (do
    let _ ← Reader.satisfy fun c => !(['#', '\n', '\r'].contains c)))

/-- A header. One whose last name is missing may lack its closing brackets too, and then the rest of the
line does not matter. -/
def header : Reader Line := do
  Reader.char '['
  let isArray := (← Reader.optional (Reader.char '[')).isSome
  blanks
  let names ← (do
    let names ← key
    blanks
    headerClose isArray
    return names) <|> (do
    let names ← openKey
    Reader.not (Reader.char ']')
    restOfLine
    return names)
  return .header isArray names

def line : Reader Line := do
  blanks
  let found ← Reader.optional (header <|> (do
    let (target, content) ← lineAssignment
    return .assignment target content))
  blanks
  let _ ← Reader.optional comment
  return found.getD .empty

/-- The lines of a document, which may open with a byte order mark. -/
def document : Reader (List Line) := do
  let _ ← Reader.optional (Reader.char '\ufeff')
  let lines ← Reader.many do
    let content ← line
    let _ ← lineEnd
    return content
  let last ← line
  Reader.atEnd
  return lines ++ [last]

/-- Groups lines: the assignments before the first header, and the sections. -/
def groupLines : List Line → List (WrittenKey × Written) × List Section
  | [] => ([], [])
  | .empty :: rest => groupLines rest
  | .assignment key value :: rest =>
    let (assignments, sections) := groupLines rest
    ((key, value) :: assignments, sections)
  | .header isArray key :: rest =>
    let (assignments, sections) := groupLines rest
    ([], ⟨isArray, key, assignments⟩ :: sections)

/-- The table that a text describes. Its numbers are judged last. -/
def Entries.ofText (text : String) : Except Fault Entries :=
  match document.readAll? text with
  | none => .error .malformed
  | some lines => do
    let (assignments, sections) := groupLines lines
    let entries ← ofParts assignments sections
    if Node.entriesInRange entries then return entries else throw .malformed

end Toml

end QueryMask
