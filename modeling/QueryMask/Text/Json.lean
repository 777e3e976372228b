/-! Lists of strings as JSON text. -/

namespace QueryMask

namespace Json

def hexDigit (n : Nat) : Char := if n < 10 then Char.ofNat (48 + n) else Char.ofNat (87 + n)

/-- One character of a string. Only quotes, backslashes and controls are escaped. -/
def charText (c : Char) : List Char :=
  if c = '"' then ['\\', '"']
  else if c = '\\' then ['\\', '\\']
  else if c = '\n' then ['\\', 'n']
  else if c = '\r' then ['\\', 'r']
  else if c = '\t' then ['\\', 't']
  else if c = '\x08' then ['\\', 'b']
  else if c = '\x0c' then ['\\', 'f']
  else if c.toNat < 0x20 then ['\\', 'u', '0', '0', hexDigit (c.toNat / 16), hexDigit (c.toNat % 16)]
  else [c]

def stringText (text : String) : String :=
  String.ofList (['"'] ++ text.toList.flatMap charText ++ ['"'])

/-- A list of strings, each on a line of its own, indented by two blanks. -/
def listText : List String → String
  | [] => "[]"
  | items => "[\n  " ++ ",\n  ".intercalate (items.map stringText) ++ "\n]"

end Json

end QueryMask
