import QueryMask.Decimal
import QueryMask.Name
import QueryMask.Text.Reader

/-! The tokens that schema documents and query documents share. -/

namespace QueryMask

namespace Grammar

def isLineEnd (c : Char) : Bool := c == '\n' || c == '\r'

/-- Characters that separate tokens; a comma is one of them. -/
def isBlank (c : Char) : Bool := c == ' ' || c == ',' || c == '\t' || c == '\ufeff' || isLineEnd c

/-- Drops blanks and comments; `comment` tells whether the text starts inside a comment. -/
def dropIgnored (comment : Bool) : List Char → List Char
  | [] => []
  | c :: rest =>
    if isLineEnd c then dropIgnored false rest
    else if comment then dropIgnored true rest
    else if c == '#' then dropIgnored true rest
    else if isBlank c then dropIgnored false rest
    else c :: rest

def token (reader : Reader α) : Reader α := fun text => reader (dropIgnored false text)

/-- A word, which the next token may touch. -/
def keyword (text : String) : Reader Unit := token (.word text.toList)

def symbol (c : Char) : Reader Unit := token (.char c)

def isNameStart (c : Char) : Bool := isAsciiLetter c || c == '_'

def isNamePart (c : Char) : Bool := isNameStart c || isAsciiDigit c

def bareName : Reader Name := do
  let first ← Reader.satisfy isNameStart
  let rest ← Reader.takeWhile isNamePart
  return String.ofList (first :: rest)

def name : Reader Name := token bareName

def between (opening closing : Char) (reader : Reader α) : Reader α := do
  symbol opening
  let result ← reader
  symbol closing
  return result

/-- One or more items, with a separator between them and possibly in front. -/
def separated (separator : Char) (item : Reader α) : Reader (List α) := do
  let _ ← Reader.optional (symbol separator)
  let first ← item
  let rest ← Reader.many do
    symbol separator
    item
  return first :: rest

/-- The digits of a whole number: a zero alone, or no leading zero. -/
def wholeDigits : Reader (List Char) :=
  (do
    Reader.char '0'
    return ['0']) <|>
  (do
    let first ← Reader.satisfy fun c => '1' ≤ c && c ≤ '9'
    let rest ← Reader.takeWhile isAsciiDigit
    return first :: rest)

def fractionDigits : Reader (List Char) := do
  Reader.char '.'
  Reader.takeWhile1 isAsciiDigit

def exponent : Reader Int := do
  let _ ← Reader.satisfy fun c => c == 'e' || c == 'E'
  let sign ← Reader.optional (Reader.satisfy fun c => c == '+' || c == '-')
  let digits ← Reader.takeWhile1 isAsciiDigit
  let magnitude : Int := Decimal.ofDigits digits
  return if sign = some '-' then -magnitude else magnitude

/-- A number, which no name may touch. -/
def number : Reader Decimal := token do
  let sign ← Reader.optional (Reader.char '-')
  let whole ← wholeDigits
  let fraction ← Reader.optional fractionDigits
  let power ← Reader.optional exponent
  Reader.not (Reader.satisfy isNameStart)
  return .ofLeadingParts sign.isSome whole (fraction.getD []) (power.getD 0)

def plainChar : Reader Char := Reader.satisfy fun c => !(c == '"' || c == '\\' || isLineEnd c)

def escaped? : Char → Option Char
  | '"' => some '"'
  | '\\' => some '\\'
  | '/' => some '/'
  | 'b' => some '\x08'
  | 'f' => some '\x0c'
  | 'n' => some '\n'
  | 'r' => some '\r'
  | 't' => some '\t'
  | _ => none

def letterEscape : Reader Char
  | '\\' :: c :: rest => (escaped? c).map (·, rest)
  | _ => none

/-- A backslash, the letter u and the four digits of a code point. -/
def numericEscape : Reader Char := do
  Reader.char '\\'
  Reader.char 'u'
  Reader.codePoint 4

def lineString : Reader String := do
  Reader.char '"'
  let characters ← Reader.many (plainChar <|> letterEscape <|> numericEscape)
  Reader.char '"'
  return String.ofList characters

end Grammar

end QueryMask
