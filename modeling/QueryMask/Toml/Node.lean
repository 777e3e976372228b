import QueryMask.Decimal

/-! TOML documents as trees. -/

namespace QueryMask

namespace Toml

inductive Fault where
  | malformed
  | nestingLimit
  deriving DecidableEq, Repr

/-- How deep values may lie inside one another, by their brackets or by the names of one key. -/
def nestingAllowance : Nat := 80

/-- A value that is not made of others. A float without a literal is infinite or not a number. An
integer without a value has characters that are no digits. -/
inductive Scalar where
  | string (text : String)
  | integer (value? : Option Int)
  | float (literal? : Option Decimal)
  | boolean (truth : Bool)
  | moment
  deriving DecidableEq, Repr

/-- Integers up to this many bits are kept, those below zero with one bit for the sign. -/
def integerBits : Nat := 128

/-- Whether a number has a value that is small enough to be kept. -/
def Scalar.inRange : Scalar → Bool
  | integer value? =>
    value?.any fun value => -(Int.pow 2 (integerBits - 1)) ≤ value && value < Int.pow 2 integerBits
  | float literal? => literal?.all Decimal.isFinite
  | string _ | boolean _ | moment => true

/-- How a table came about: on the way to a header, by a dotted key, or by a header of its own. -/
inductive TableOrigin where
  | implied
  | dotted
  | declared
  deriving DecidableEq, Repr

/-- A node. Arrays and inline tables are closed; the tables of headers and dotted keys can grow. -/
inductive Node where
  | scalar (value : Scalar)
  | array (items : List Node)
  | inline (entries : List (String × Node))
  | table (origin : TableOrigin) (entries : List (String × Node))
  | tables (elements : List (List (String × Node)))

abbrev Entries := List (String × Node)

namespace Node

/-- The entries of a node that is a table, in whatever way it is written. -/
def entries? : Node → Option Entries
  | .inline entries | .table _ entries => some entries
  | .scalar _ | .array _ | .tables _ => none

def isEmpty : Node → Bool
  | .inline [] | .table _ [] | .array [] | .tables [] => true
  | _ => false

end Node

mutual

/-- Whether all numbers in a node have values that are small enough to be kept. -/
def Node.inRange : Node → Bool
  | .scalar value => value.inRange
  | .array items => Node.allInRange items
  | .inline entries => Node.entriesInRange entries
  | .table _ entries => Node.entriesInRange entries
  | .tables elements => Node.elementsInRange elements

def Node.allInRange : List Node → Bool
  | [] => true
  | item :: rest => item.inRange && Node.allInRange rest

def Node.entriesInRange : List (String × Node) → Bool
  | [] => true
  | (_, node) :: rest => node.inRange && Node.entriesInRange rest

def Node.elementsInRange : List (List (String × Node)) → Bool
  | [] => true
  | entries :: rest => Node.entriesInRange entries && Node.elementsInRange rest

end

end Toml

end QueryMask
