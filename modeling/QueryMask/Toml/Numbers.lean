import QueryMask.Text.Reader
import QueryMask.Toml.Node

/-!
Integers and floats. The text of a number is tested for the places of its signs, zeros and underscores;
an integer that passes can still have a character that is no digit, and then it has no value.
-/

namespace QueryMask

namespace Toml

structure Signed where
  sign? : Option Char
  magnitude : List Char
  deriving DecidableEq, Repr

namespace Signed

def ofText : List Char → Signed
  | [] => ⟨none, []⟩
  | c :: rest => if c == '+' || c == '-' then ⟨some c, rest⟩ else ⟨none, c :: rest⟩

def isNegative (number : Signed) : Bool := number.sign? == some '-'

end Signed

/-- Whether the characters on both sides of each underscore pass a test. Of what stands before the text
it is given whether it does. -/
def underscoresFit (test : Char → Bool) (passedBefore : Bool) : List Char → Bool
  | [] => true
  | c :: rest =>
    if c == '_' then passedBefore && rest.head?.any test && underscoresFit test false rest
    else underscoresFit test (test c) rest

def withoutUnderscores (text : List Char) : List Char := text.filter (· != '_')

def isDigitTo (base : Nat) (c : Char) : Bool := (hexValue? c).any (· < base)

/-- The value of digits to a base. At least one is there. -/
def valueOf? (base : Nat) (digits : List Char) : Option Nat :=
  if digits.isEmpty || !digits.all (isDigitTo base) then none
  else some (digits.foldl (fun value digit => base * value + (hexValue? digit).getD 0) 0)

def signedValueOf? (negative : Bool) (digits : List Char) : Option Int :=
  (valueOf? 10 digits).map fun (magnitude : Nat) =>
    if negative then -(magnitude : Int) else magnitude

def baseOf? : Char → Option Nat
  | 'x' => some 16
  | 'o' => some 8
  | 'b' => some 2
  | _ => none

/-- An integer to a base other than ten. Its digits may be missing, and then it has no value. -/
def basedInteger? : List Char → Option Scalar
  | '0' :: letter :: digits => do
    let base ← baseOf? letter
    guard ((withoutUnderscores digits).all (isDigitTo base) && underscoresFit (isDigitTo base) false digits)
    return .integer ((valueOf? base (withoutUnderscores digits)).map Int.ofNat)
  | _ => none

def hasLeadingZero (digits : List Char) : Bool := digits.head? == some '0' && digits.length != 1

/--
A decimal integer. Behind an underscore, characters that are no digits leave it without a value, unless
they make a float of it. Beside underscores stand hexadecimal digits or the sign.
-/
def decimalInteger? (text : List Char) : Option Scalar := do
  let number := Signed.ofText text
  let digits := number.magnitude
  let tail := digits.dropWhile isAsciiDigit
  guard (!digits.isEmpty && !hasLeadingZero digits)
  guard (tail.head?.all (· == '_') && !tail.any fun c => ['.', 'e', 'E', ' '].contains c)
  guard (underscoresFit (isDigitTo 16) number.sign?.isSome digits)
  return .integer (signedValueOf? number.isNegative (withoutUnderscores digits))

/-- Digits and underscores, of which one at least is a digit. -/
def digitRun : Reader (List Char) := do
  let run ← Reader.takeWhile fun c => isAsciiDigit c || c == '_'
  if run.any isAsciiDigit then return run else failure

def wholeRun : Reader (List Char) := do
  let run ← digitRun
  if run.head? == some '0' && (withoutUnderscores run).length != 1 then failure else return run

def fraction : Reader (List Char) := do
  Reader.char '.'
  digitRun

def exponent : Reader Int := do
  let _ ← Reader.satisfy fun c => c == 'e' || c == 'E'
  let sign? ← Reader.optional (Reader.satisfy fun c => c == '+' || c == '-')
  let digits ← digitRun
  return (signedValueOf? (sign? == some '-') (withoutUnderscores digits)).getD 0

/-- A float without its sign. One without fraction and exponent is none. -/
def unsignedFloat (negative : Bool) : Reader Decimal := do
  let whole ← wholeRun
  let fraction? ← Reader.optional fraction
  let exponent? ← Reader.optional exponent
  let decimals := withoutUnderscores (fraction?.getD [])
  if fraction?.isNone && exponent?.isNone then failure
  else return .ofParts negative (withoutUnderscores whole) decimals (exponent?.getD 0)

def float? (text : List Char) : Option Scalar := do
  let number := Signed.ofText text
  guard (underscoresFit isAsciiDigit number.sign?.isSome number.magnitude)
  let literal ← (unsignedFloat number.isNegative).readWhole? number.magnitude
  return .float (some literal)

def specialFloat? (text : List Char) : Option Scalar := do
  let word := (Signed.ofText text).magnitude
  guard (word == "inf".toList || word == "nan".toList)
  return .float none

end Toml

end QueryMask
