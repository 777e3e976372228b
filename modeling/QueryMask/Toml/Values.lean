import QueryMask.Toml.Moment
import QueryMask.Toml.Numbers
import QueryMask.Toml.Strings
import QueryMask.Toml.Written

/-! Keys and values, of which arrays and inline tables hold others. -/

namespace QueryMask

namespace Toml

def isBareKeyChar (c : Char) : Bool := isAsciiLetter c || isAsciiDigit c || c == '_' || c == '-'

/-- Characters that stand for the structure of a document, and blanks. -/
def isDelimiter (c : Char) : Bool :=
  isInlineBlank c || ['.', '=', ',', '[', ']', '\x7b', '\x7d', '#', '\n', '\r'].contains c

/-- The characters up to the next delimiter, where no string begins. -/
def atom : Reader (List Char) := do
  Reader.not (Reader.satisfy fun c => c == '"' || c == '\'')
  Reader.takeWhile1 fun c => !isDelimiter c

def presentName : Reader (Spelled String) :=
  (do
    Reader.not longQuotes
    some <$> lineString) <|>
  (do
    unjudgedString
    return none) <|>
  (do
    let name ← atom
    return if name.all isBareKeyChar then some (String.ofList name) else none)

/-- One name of a key. It may be missing, which is a matter of spelling. -/
def keyName : Reader (Spelled String) := presentName <|> pure none

def nameDot : Reader Unit := do
  blanks
  Reader.char '.'
  blanks

def key : Reader WrittenKey := do
  let first ← keyName
  let rest ← Reader.many (nameDot *> keyName)
  return first :: rest

def openKey : Reader WrittenKey := do
  let names ← Reader.many (keyName <* nameDot)
  Reader.not presentName
  return names ++ [none]

/-- Text without quotes where a value stands, with the blanks and dots inside it. -/
def plainText : Reader (List Char) := do
  let part : Reader (List Char) := atom <|> ((fun _ => ['.']) <$> Reader.char '.')
  let first ← part
  let rest ← Reader.many do
    let gap ← Reader.takeWhile isInlineBlank
    let next ← part
    return gap ++ next
  return first ++ rest.flatten

def Scalar.ofPlain? (text : List Char) : Option Scalar :=
  if text = "true".toList then some (boolean true)
  else if text = "false".toList then some (boolean false)
  else basedInteger? text <|> decimalInteger? text <|> float? text <|> specialFloat? text <|>
    moment? text

def scalar : Reader (Spelled Scalar) :=
  (do
    let text ← longString <|> (Reader.not longQuotes *> lineString)
    return some (.string text)) <|>
  (do
    unjudgedString
    return none) <|>
  Scalar.ofPlain? <$> plainText

def commaList (item : Reader α) : Reader (List α) := do
  bracketBlanks
  let items ← Reader.optional do
    let first ← item
    let rest ← Reader.many do
      bracketBlanks
      Reader.char ','
      bracketBlanks
      item
    bracketBlanks
    let _ ← Reader.optional (Reader.char ',')
    return first :: rest
  bracketBlanks
  return items.getD []

def array (value : Reader Written) : Reader Written := do
  Reader.char '['
  let items ← commaList value
  Reader.char ']'
  return .array items

/-- The end of an inline table where a value is missing, which is a matter of spelling. -/
def missingInline : Reader Written := do
  Reader.ahead (Reader.char '\x7d')
  return .scalar none

/-- An assignment in an inline table, given a reader of its value. Lines may end anywhere but inside the
key, and in front of the end of the table the value may be missing. -/
def inlineAssignment (value : Reader Written) : Reader (WrittenKey × Written) := do
  Reader.not (Reader.char '\x7d')
  let names ← key
  bracketBlanks
  let content ← (do
    Reader.char '='
    bracketBlanks
    value <|> missingInline) <|> missingInline
  return (names, content)

def inlineTable (value : Reader Written) : Reader Written := do
  Reader.char '\x7b'
  let assignments ← commaList (inlineAssignment value)
  Reader.char '\x7d'
  return .inline assignments

/-- A value with at most so many brackets around anything in it. -/
def value (depth : Nat) : Reader Written :=
  match depth with
  | 0 => .scalar <$> scalar
  | depth + 1 => (.scalar <$> scalar) <|> array (value depth) <|> inlineTable (value depth)

/-- An assignment on a line of its own. The value may be missing, which is a matter of spelling. -/
def lineAssignment : Reader (WrittenKey × Written) := do
  let names ← key
  blanks
  Reader.char '='
  blanks
  let content ← value nestingAllowance <|> pure (.scalar none)
  return (names, content)

end Toml

end QueryMask
