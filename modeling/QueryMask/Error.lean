import QueryMask.Schema.Definition

/-! What can go wrong, with a code and a message for each cause. -/

namespace QueryMask

/-- Why a schema document is refused, in the words of what reads it. -/
structure SchemaFault where
  stated ::
  reason : String
  deriving DecidableEq, Repr

/-- Why a query document is refused, in the words of what reads it, or why no operation of it is selected. -/
inductive QueryFault where
  | operationNameRequired
  | unknownOperation (name : Name)
  | stated (reason : String)
  deriving DecidableEq, Repr

/-- Why settings are refused: by what reads them, in its words, or for what they say. -/
inductive SettingsFault where
  | emptyNameDirective
  | stated (reason : String)
  deriving DecidableEq, Repr

def QueryFault.text : QueryFault → String
  | operationNameRequired => "document has several operations, an operation name is required"
  | unknownOperation name => "unknown operation: " ++ name
  | stated reason => reason

def SettingsFault.text : SettingsFault → String
  | emptyNameDirective => "name_directive must not be empty"
  | stated reason => reason

inductive MaskError where
  | unknownType (name : Name)
  | unknownField (type field : Name)
  | unknownFragment (name : Name)
  | fragmentCycle (name : Name)
  | invalidSchema (fault : SchemaFault)
  | invalidQuery (fault : QueryFault)
  | fieldNotFound (path : String)
  | invalidSettings (fault : SettingsFault)
  /-- Fragments reach themselves through nested fields, so the selected paths have no end. -/
  | endlessSelection
  deriving DecidableEq, Repr

namespace MaskError

def code : MaskError → String
  | unknownType _ => "UNKNOWN_TYPE"
  | unknownField _ _ => "UNKNOWN_FIELD"
  | unknownFragment _ => "UNKNOWN_FRAGMENT"
  | fragmentCycle _ => "FRAGMENT_CYCLE"
  | invalidSchema _ => "INVALID_SCHEMA"
  | invalidQuery _ => "INVALID_QUERY"
  | fieldNotFound _ => "FIELD_NOT_FOUND"
  | invalidSettings _ => "CONFIGURATION_ERROR"
  | endlessSelection => "ENDLESS_SELECTION"

def message : MaskError → String
  | unknownType name => "Unknown object type: " ++ name
  | unknownField type field => "Field " ++ field ++ " is not defined on type " ++ type
  | unknownFragment name => "Unknown fragment: " ++ name
  | fragmentCycle name => "Fragment " ++ name ++ " spreads itself"
  | invalidSchema fault => "Invalid schema: " ++ fault.reason
  | invalidQuery fault => "Invalid query: " ++ fault.text
  | fieldNotFound path => "No field at response path: " ++ path
  | invalidSettings fault => "Configuration error: " ++ fault.text
  | endlessSelection => "The selection has no end"

end MaskError

end QueryMask
