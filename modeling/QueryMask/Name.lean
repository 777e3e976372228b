/-! Names of types, fields, fragments and operations. -/

namespace QueryMask

/-- The name of a type, a field, an argument, a directive, a fragment or an operation. -/
abbrev Name := String

/-- Names that open with two underscores belong to introspection. -/
def Name.isReserved (name : Name) : Bool :=
  ['_', '_'].isPrefixOf name.toList

end QueryMask
