import QueryMask.Name

/-! References to types, with list and non-null wrappers. -/

namespace QueryMask

/-- A type as written at a field: a name, or a list of a type, either of them possibly non-null. -/
inductive TypeRef where
  | named (name : Name) (nonNull : Bool)
  | list (element : TypeRef) (nonNull : Bool)
  deriving DecidableEq, Repr

namespace TypeRef

def core : TypeRef → Name
  | named name _ => name
  | list element _ => element.core

def nonNullMark (nonNull : Bool) : String := if nonNull then "!" else ""

def text : TypeRef → String
  | named name nonNull => name ++ nonNullMark nonNull
  | list element nonNull => "[" ++ element.text ++ "]" ++ nonNullMark nonNull

end TypeRef

end QueryMask
