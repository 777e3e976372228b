import QueryMask.Grammar.Token

/-! Block strings: where they end, and how their common indentation is removed. -/

namespace QueryMask

namespace Grammar

def tripleQuote : List Char := ['"', '"', '"']

/-- One piece inside a block string: three quotes after a backslash, or a character that does not
start three quotes. -/
def blockPiece : Reader (List Char) :=
  (do
    Reader.word ('\\' :: tripleQuote)
    return '\\' :: tripleQuote) <|>
  (do
    Reader.not (Reader.word tripleQuote)
    let c ← Reader.satisfy fun _ => true
    return [c])

/-- The lines of a text; a carriage return and a line feed after it end one line. -/
def lines : List Char → List (List Char)
  | [] => [[]]
  | '\r' :: '\n' :: rest => [] :: lines rest
  | c :: rest =>
    if isLineEnd c then [] :: lines rest
    else match lines rest with
      | [] => [[c]]
      | line :: later => (c :: line) :: later

def isIndent (c : Char) : Bool := c == ' ' || c == '\t'

def isBlankLine (line : List Char) : Bool := line.all isIndent

def indentation? (line : List Char) : Option Nat :=
  if isBlankLine line then none else some (line.takeWhile isIndent).length

/-- The least indentation of the lines after the first, zero if none of them counts. -/
def commonIndent (lines : List (List Char)) : Nat :=
  ((lines.drop 1).filterMap indentation?).min?.getD 0

def outdent (indent : Nat) (line : List Char) : List Char :=
  if indent ≤ line.length then line.drop indent else line

def trimLines (lines : List (List Char)) : List (List Char) :=
  ((lines.dropWhile isBlankLine).reverse.dropWhile isBlankLine).reverse

def blockText (content : List Char) : List Char :=
  match lines content with
  | [] => []
  | first :: later =>
    let indent := commonIndent (first :: later)
    ['\n'].intercalate (trimLines (first :: later.map (outdent indent)))

def blockString : Reader String := do
  Reader.word tripleQuote
  let pieces ← Reader.many blockPiece
  Reader.word tripleQuote
  return String.ofList (blockText pieces.flatten)

def stringLiteral : Reader String := token (blockString <|> lineString)

end Grammar

end QueryMask
