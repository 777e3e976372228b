import QueryMask.Text.Reader
import QueryMask.Toml.Node

/-! Dates and times of day. -/

namespace QueryMask

namespace Toml

def fixedDigits (count : Nat) : Reader Nat :=
  match count with
  | 0 => pure 0
  | count + 1 => do
    let digit ← Reader.satisfy isAsciiDigit
    let rest ← fixedDigits count
    return (digit.toNat - '0'.toNat) * 10 ^ count + rest

def within (low high value : Nat) : Reader Unit :=
  if low ≤ value && value ≤ high then pure () else failure

def isLeapYear (year : Nat) : Bool := (year % 4 == 0 && year % 100 != 0) || year % 400 == 0

def daysInMonth (year month : Nat) : Nat :=
  if month = 2 then (if isLeapYear year then 29 else 28)
  else if month ∈ [4, 6, 9, 11] then 30
  else 31

def date : Reader Unit := do
  let year ← fixedDigits 4
  Reader.char '-'
  let month ← fixedDigits 2
  within 1 12 month
  Reader.char '-'
  let day ← fixedDigits 2
  within 1 (daysInMonth year month) day

/-- Seconds, possibly with a fraction; a leap second counts. -/
def seconds : Reader Unit := do
  Reader.char ':'
  within 0 60 (← fixedDigits 2)
  let _ ← Reader.optional do
    Reader.char '.'
    Reader.takeWhile1 isAsciiDigit

/-- A time of day. The seconds may be left out. -/
def timeOfDay : Reader Unit := do
  within 0 23 (← fixedDigits 2)
  Reader.char ':'
  within 0 59 (← fixedDigits 2)
  let _ ← Reader.optional seconds

def timeOffset : Reader Unit :=
  (do
    let _ ← Reader.satisfy fun c => c == 'Z' || c == 'z') <|>
  (do
    let _ ← Reader.satisfy fun c => c == '+' || c == '-'
    within 0 23 (← fixedDigits 2)
    Reader.char ':'
    within 0 59 (← fixedDigits 2))

def timeAfterDate : Reader Unit := do
  let _ ← Reader.satisfy fun c => c == 'T' || c == 't' || c == ' '
  timeOfDay
  let _ ← Reader.optional timeOffset

def moment : Reader Unit :=
  (do
    date
    let _ ← Reader.optional timeAfterDate) <|>
  timeOfDay

def moment? (text : List Char) : Option Scalar := (moment.readWhole? text).map fun _ => .moment

end Toml

end QueryMask
