import QueryMask.Settings

/-! The commands of the program. -/

namespace QueryMask

namespace CommandLine

inductive ListFormat where
  | json
  | lines
  deriving DecidableEq, Repr

/-- Prints the paths below a field of a query. -/
structure PathsCommand where
  schema : String
  query : String
  field : Path
  type : Name
  operation? : Option Name
  config? : Option String
  abstractTypes? : Option AbstractHandling
  dedup : Bool
  format : ListFormat
  deriving DecidableEq, Repr

/-- Prints object types, or the possible types of one type. -/
structure TypesCommand where
  schema : String
  type? : Option Name
  format : ListFormat
  deriving DecidableEq, Repr

inductive Command where
  | paths (command : PathsCommand)
  | types (command : TypesCommand)
  deriving DecidableEq, Repr

end CommandLine

end QueryMask
