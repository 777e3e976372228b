import QueryMask.Text.Reader

/-! Blanks, comments and strings. -/

namespace QueryMask

namespace Toml

def isInlineBlank (c : Char) : Bool := c == ' ' || c == '\t'

/-- Control characters, which stand neither in strings nor in comments; a tab is none of them. -/
def isControl (c : Char) : Bool := (c.toNat < 0x20 && c != '\t') || c.toNat == 0x7f

def blanks : Reader Unit := do
  let _ ← Reader.takeWhile isInlineBlank

def lineEnd : Reader (List Char) :=
  (do
    Reader.char '\n'
    return ['\n']) <|>
  (do
    Reader.word ['\r', '\n']
    return ['\r', '\n'])

def comment : Reader Unit := do
  Reader.char '#'
  let _ ← Reader.takeWhile fun c => !isControl c

def bracketBlanks : Reader Unit := do
  let _ ← Reader.many ((do
    let _ ← Reader.takeWhile1 isInlineBlank) <|> comment <|> (do
    let _ ← lineEnd))

def escape : Reader Char := do
  Reader.char '\\'
  match ← Reader.satisfy fun _ => true with
  | 'b' => return '\x08'
  | 't' => return '\t'
  | 'n' => return '\n'
  | 'f' => return '\x0c'
  | 'r' => return '\r'
  | 'e' => return '\x1b'
  | '"' => return '"'
  | '\\' => return '\\'
  | 'x' => Reader.codePoint 2
  | 'u' => Reader.codePoint 4
  | 'U' => Reader.codePoint 8
  | _ => failure

def basicChar : Reader Char := Reader.satisfy fun c => !(isControl c || c == '"' || c == '\\')

def literalChar : Reader Char := Reader.satisfy fun c => !(isControl c || c == '\'')

def lineString : Reader String :=
  (do
    Reader.char '"'
    let content ← Reader.many (basicChar <|> escape)
    Reader.char '"'
    return String.ofList content) <|>
  (do
    Reader.char '\''
    let content ← Reader.many literalChar
    Reader.char '\''
    return String.ofList content)

/-- A backslash at the end of a line, with all blanks and line ends up to the next character. -/
def lineJoin : Reader (List Char) := do
  Reader.char '\\'
  blanks
  let _ ← lineEnd
  let _ ← Reader.many (lineEnd <|> Reader.takeWhile1 isInlineBlank)
  return []

/-- One or two quotes that do not close a string of several lines. -/
def innerQuotes (quote : Char) : Reader (List Char) := do
  Reader.not (Reader.word [quote, quote, quote])
  Reader.char quote
  return [quote]

/-- The closing quotes of a string of several lines; up to two more in front belong to the string. -/
def closingQuotes (quote : Char) : Reader (List Char) :=
  (do
    Reader.word [quote, quote, quote, quote, quote]
    return [quote, quote]) <|>
  (do
    Reader.word [quote, quote, quote, quote]
    return [quote]) <|>
  (do
    Reader.word [quote, quote, quote]
    return [])

/-- A string of several lines between given quotes. An end of line right after the opening is dropped. -/
def longStringOf (quote : Char) (piece : Reader (List Char)) : Reader String := do
  Reader.word [quote, quote, quote]
  let _ ← Reader.optional lineEnd
  let pieces ← Reader.many (lineEnd <|> innerQuotes quote <|> piece)
  let last ← closingQuotes quote
  return String.ofList (pieces.flatten ++ last)

def longString : Reader String :=
  longStringOf '"' (lineJoin <|> (([·]) <$> (basicChar <|> escape))) <|>
  longStringOf '\'' (([·]) <$> literalChar)

def longQuotes : Reader Unit := Reader.word ['"', '"', '"'] <|> Reader.word ['\'', '\'', '\'']

/-- A backslash, with the quote or backslash that it protects. -/
def protection : Reader Unit := do
  Reader.char '\\'
  let _ ← Reader.optional (Reader.satisfy fun c => c == '"' || c == '\\')

/-- Goes up to some closing quotes or to the end of the text, whatever is in between. -/
def upToQuotes (close : Reader Unit) (protect : Reader Unit) : Reader Unit := do
  let _ ← Reader.many (Reader.not close *> (protect <|> (do
    let _ ← Reader.satisfy fun _ => true)))
  let _ ← Reader.optional close

/-- Goes up to a closing quote or to the end of the line, whatever is in between. -/
def upToQuote (quote : Char) (protect : Reader Unit) : Reader Unit := do
  let _ ← Reader.many (protect <|> (do
    let _ ← Reader.satisfy fun c => c != quote && c != '\n'))
  let _ ← Reader.optional (Reader.char quote)

/-- A string whose content is not looked at, and which may lack its closing quotes. -/
def unjudgedString : Reader Unit :=
  (do
    Reader.word ['"', '"', '"']
    upToQuotes (do
      let _ ← closingQuotes '"') protection) <|>
  (do
    Reader.word ['\'', '\'', '\'']
    upToQuotes (do
      let _ ← closingQuotes '\'') failure) <|>
  (do
    Reader.char '"'
    upToQuote '"' protection) <|>
  (do
    Reader.char '\''
    upToQuote '\'' failure)

end Toml

end QueryMask
