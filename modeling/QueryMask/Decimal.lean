/-!
Decimal literals, and two tests whether one is a finite binary64 number: rounded once, or as the product
of two rounded factors.
-/

namespace QueryMask

/-- The number `± coefficient · 10 ^ exponent`. -/
structure Decimal where
  negative : Bool
  coefficient : Nat
  exponent : Int
  deriving DecidableEq, Repr

namespace Decimal

def ofDigits (digits : List Char) : Nat :=
  digits.foldl (fun value digit => 10 * value + (digit.toNat - '0'.toNat)) 0

def ofParts (negative : Bool) (whole fraction : List Char) (power : Int) : Decimal :=
  ⟨negative, ofDigits (whole ++ fraction), power - fraction.length⟩

/-- The least magnitude that rounds away from every finite binary64 number. -/
def overflowThreshold : Nat := Nat.pow 2 1024 - Nat.pow 2 970

def digitCount (n : Nat) : Nat := (Nat.toDigits 10 n).length

/--
Whether the nearest binary64 number is finite. Below `10 ^ 308` and from `10 ^ 309` on the order of
magnitude decides, so the exact comparison is only made between the two.
-/
def isFinite (d : Decimal) : Bool :=
  let magnitude := digitCount d.coefficient + d.exponent
  if d.coefficient = 0 ∨ magnitude ≤ 308 then true
  else if 309 < magnitude then false
  else match d.exponent with
    | .ofNat up => d.coefficient * Nat.pow 10 up < overflowThreshold
    | .negSucc down => d.coefficient < overflowThreshold * Nat.pow 10 (down + 1)

/-- The least coefficient that a 64-bit word does not hold. -/
def wordLimit : Nat := Nat.pow 2 64

/-- Reads digits after those of a coefficient while a word holds the result. The digits from the first
one that it does not hold are left. -/
def fillWord (coefficient : Nat) : List Char → Nat × List Char
  | [] => (coefficient, [])
  | digit :: rest =>
    let next := 10 * coefficient + ofDigits [digit]
    if next < wordLimit then fillWord next rest else (coefficient, digit :: rest)

/--
The number cut to a coefficient of one word. Digits of the whole part that do not fit count as zeros,
and the fraction goes on from there as far as it fits.
-/
def ofLeadingParts (negative : Bool) (whole fraction : List Char) (power : Int) : Decimal :=
  let (head, zeros) := fillWord 0 whole
  let (coefficient, rest) := fillWord head fraction
  ⟨negative, coefficient, power + zeros.length - (fraction.length - rest.length)⟩

def binaryDigits : Nat := 53

/-- The nearest number with the binary digits of binary64, the even one of two. -/
def nearest (n : Nat) : Nat :=
  let unit := Nat.pow 2 (Nat.log2 n + 1 - binaryDigits)
  let below := n / unit
  let excess := 2 * (n % unit)
  if unit < excess ∨ (unit = excess ∧ below % 2 = 1) then (below + 1) * unit else below * unit

/-- The greatest power of ten that is a binary64 number after rounding. -/
def greatestPower : Nat := 308

/--
Whether the number is finite if its coefficient and its power of ten are rounded to binary64 before
they are multiplied. The product can be infinite where the number itself rounds to a finite one.
-/
def isFiniteProduct (d : Decimal) : Bool :=
  match d.exponent with
  | .negSucc _ => true
  | .ofNat power =>
    d.coefficient = 0 ||
      (power ≤ greatestPower && nearest d.coefficient * nearest (Nat.pow 10 power) < overflowThreshold)

end Decimal

end QueryMask
