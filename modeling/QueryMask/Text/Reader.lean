/-! Readers of text: ordered choice, repetition and nesting over the characters that are left. -/

namespace QueryMask

/-- Reads something off the front of a text, or fails. -/
abbrev Reader := StateT (List Char) Option

namespace Reader

def satisfy (test : Char → Bool) : Reader Char
  | c :: rest => if test c then some (c, rest) else none
  | [] => none

def char (c : Char) : Reader Unit := do
  let _ ← satisfy (· == c)

/-- The characters of a word, whatever follows. -/
def word : List Char → Reader Unit
  | [] => pure ()
  | c :: rest => do
    char c
    word rest

def takeWhile (test : Char → Bool) : Reader (List Char) := fun text => some (text.span test)

def takeWhile1 (test : Char → Bool) : Reader (List Char) := do
  let first ← satisfy test
  let rest ← takeWhile test
  return first :: rest

def optional (reader : Reader α) : Reader (Option α) := (some <$> reader) <|> pure none

/-- Looks ahead: succeeds where `reader` fails, and reads nothing. -/
def not (reader : Reader α) : Reader Unit := fun text =>
  match reader text with
  | some _ => none
  | none => some ((), text)

/-- Looks ahead: succeeds where `reader` does, and reads nothing. -/
def ahead (reader : Reader α) : Reader Unit := not (not reader)

/-- Reads up to `bound` times, as often as it can. -/
def upTo (bound : Nat) (reader : Reader α) (text : List Char) : List α × List Char :=
  match bound with
  | 0 => ([], text)
  | bound + 1 =>
    match reader text with
    | none => ([], text)
    | some (item, rest) =>
      let (items, rest) := upTo bound reader rest
      (item :: items, rest)

/-- Reads as often as it can. After the first time, a reader that takes something can be used no more
often than there are characters left. -/
def many (reader : Reader α) : Reader (List α) := fun text =>
  match reader text with
  | none => some ([], text)
  | some (item, rest) =>
    let (items, rest) := upTo rest.length reader rest
    some (item :: items, rest)

def many1 (reader : Reader α) : Reader (List α) := do
  let first ← reader
  let rest ← many reader
  return first :: rest

/-- A reader that uses itself inside itself, at most `depth` deep. -/
def nest (depth : Nat) (layer : Reader α → Reader α) : Reader α :=
  match depth with
  | 0 => failure
  | depth + 1 => layer (nest depth layer)

/-- A reader that uses itself inside itself, after taking a character. -/
def recursive (layer : Reader α → Reader α) : Reader α := fun text =>
  nest (text.length + 1) layer text

def atEnd : Reader Unit
  | [] => some ((), [])
  | _ :: _ => none

def readWhole? (reader : Reader α) (text : List Char) : Option α :=
  match reader text with
  | some (result, []) => some result
  | _ => none

def readAll? (reader : Reader α) (text : String) : Option α := reader.readWhole? text.toList

end Reader

def isAsciiLetter (c : Char) : Bool := ('a' ≤ c && c ≤ 'z') || ('A' ≤ c && c ≤ 'Z')

def isAsciiDigit (c : Char) : Bool := '0' ≤ c && c ≤ '9'

def hexValue? (c : Char) : Option Nat :=
  if isAsciiDigit c then some (c.toNat - '0'.toNat)
  else if 'a' ≤ c && c ≤ 'f' then some (c.toNat - 'a'.toNat + 10)
  else if 'A' ≤ c && c ≤ 'F' then some (c.toNat - 'A'.toNat + 10)
  else none

namespace Reader

def hexDigit : Reader Nat
  | c :: rest => (hexValue? c).map (·, rest)
  | [] => none

/-- The value of a given number of hexadecimal digits, after those already read. -/
def hexNumber : (count : Nat) → (value : Nat) → Reader Nat
  | 0, value => pure value
  | count + 1, value => do
    let digit ← hexDigit
    hexNumber count (16 * value + digit)

/-- The character of a code point that is written with a given number of hexadecimal digits. -/
def codePoint (count : Nat) : Reader Char := do
  let value ← hexNumber count 0
  if value.isValidChar then return Char.ofNat value else failure

end Reader

end QueryMask
