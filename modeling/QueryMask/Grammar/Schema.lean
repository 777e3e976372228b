import QueryMask.Grammar.Value

/-! Reading schema documents. -/

namespace QueryMask

namespace Grammar

def orNothing (items : Reader (List α)) : Reader (List α) := do
  let found ← Reader.optional items
  return found.getD []

def description : Reader (Option String) := Reader.optional stringLiteral

def inputValue : Reader InputValue := do
  let description? ← description
  let key ← name
  symbol ':'
  let declared ← type
  let default? ← Reader.optional defaultValue
  let applied ← directives true
  return ⟨description?, key, declared, default?, applied⟩

def argumentsDefinition : Reader (List InputValue) := between '(' ')' (Reader.many1 inputValue)

def fieldDefinition : Reader FieldDefinition := do
  let description? ← description
  let key ← name
  let arguments ← orNothing argumentsDefinition
  symbol ':'
  let declared ← type
  let applied ← directives true
  return ⟨description?, key, arguments, declared, applied⟩

def fieldsDefinition : Reader (List FieldDefinition) :=
  between '\x7b' '\x7d' (Reader.many1 fieldDefinition)

def implementsInterfaces : Reader (List Name) := do
  keyword "implements"
  separated '&' name

def unionMembers : Reader (List Name) := do
  symbol '='
  separated '|' name

def enumValue : Reader EnumValue := do
  let description? ← description
  let key ← enumName
  let applied ← directives true
  return ⟨description?, key, applied⟩

def enumValues : Reader (List EnumValue) := between '\x7b' '\x7d' (Reader.many1 enumValue)

def inputFields : Reader (List InputValue) := between '\x7b' '\x7d' (Reader.many1 inputValue)

def scalarType : Reader (Name × List Directive × TypeBody) := do
  keyword "scalar"
  let key ← name
  let applied ← directives true
  return (key, applied, .scalar)

/-- Name, directives and body of an object or interface, after its keyword. -/
def fieldedType (body : List Name → List FieldDefinition → TypeBody) :
    Reader (Name × List Directive × TypeBody) := do
  let key ← name
  let implements ← orNothing implementsInterfaces
  let applied ← directives true
  let fields ← orNothing fieldsDefinition
  return (key, applied, body implements fields)

/-- Name, directives and body of a type with a list of items, after its keyword. -/
def listedType (items : Reader (List α)) (body : List α → TypeBody) :
    Reader (Name × List Directive × TypeBody) := do
  let key ← name
  let applied ← directives true
  let listed ← orNothing items
  return (key, applied, body listed)

def anyType : Reader (Name × List Directive × TypeBody) :=
  scalarType <|>
  (do
    keyword "type"
    fieldedType .object) <|>
  (do
    keyword "interface"
    fieldedType .interface) <|>
  (do
    keyword "union"
    listedType unionMembers .union) <|>
  (do
    keyword "enum"
    listedType enumValues .enum) <|>
  (do
    keyword "input"
    listedType inputFields .inputObject)

/-- Whether a body adds something to its type. For an interface, implementing others is not enough. -/
def extendsBody : TypeBody → Bool
  | .scalar => false
  | .object implements fields => !implements.isEmpty || !fields.isEmpty
  | .interface _ fields => !fields.isEmpty
  | .union members => !members.isEmpty
  | .enum values => !values.isEmpty
  | .inputObject fields => !fields.isEmpty

def typeDefinition : Reader TypeDefinition := do
  let description? ← description
  let (key, applied, body) ← anyType
  return ⟨false, description?, key, applied, body⟩

/-- The extension of a type, which adds a directive or something of the body. -/
def typeExtension : Reader TypeDefinition := do
  keyword "extend"
  let (key, applied, body) ← anyType
  if applied.isEmpty && !extendsBody body then failure
  else return ⟨true, none, key, applied, body⟩

def rootOperation : Reader (OperationKind × Name) := do
  let kind ← operationKind
  symbol ':'
  let root ← name
  return (kind, root)

def rootOperations : Reader (List (OperationKind × Name)) :=
  between '\x7b' '\x7d' (Reader.many1 rootOperation)

def rootDefinition : Reader RootDefinition := do
  keyword "schema"
  let applied ← directives true
  let roots ← rootOperations
  return ⟨false, applied, roots⟩

/-- The extension of the root operations, which adds a directive or a root. -/
def rootExtension : Reader RootDefinition := do
  keyword "extend"
  keyword "schema"
  let applied ← directives true
  let roots ← orNothing rootOperations
  if applied.isEmpty && roots.isEmpty then failure else return ⟨true, applied, roots⟩

/-- Where directives can stand. A place comes before those that its name starts with. -/
def directiveLocations : List String :=
  ["QUERY", "MUTATION", "SUBSCRIPTION", "FIELD_DEFINITION", "FIELD", "FRAGMENT_DEFINITION",
   "FRAGMENT_SPREAD", "INLINE_FRAGMENT", "VARIABLE_DEFINITION", "SCHEMA", "SCALAR", "OBJECT",
   "ARGUMENT_DEFINITION", "INTERFACE", "UNION", "ENUM_VALUE", "ENUM", "INPUT_OBJECT",
   "INPUT_FIELD_DEFINITION"]

def oneOf : List String → Reader String
  | [] => failure
  | choice :: rest =>
    (do
      keyword choice
      return choice) <|> oneOf rest

def directiveDefinition : Reader DirectiveDefinition := do
  let description? ← description
  keyword "directive"
  symbol '@'
  let key ← name
  let arguments ← orNothing argumentsDefinition
  let repeatable ← Reader.optional (keyword "repeatable")
  keyword "on"
  let locations ← separated '|' (oneOf directiveLocations)
  return ⟨description?, key, arguments, repeatable.isSome, locations⟩

def schemaDefinition : Reader SchemaDefinition :=
  (SchemaDefinition.roots <$> (rootDefinition <|> rootExtension)) <|>
  (SchemaDefinition.type <$> (typeDefinition <|> typeExtension)) <|>
  (SchemaDefinition.directive <$> directiveDefinition)

def schemaDocument : Reader (List SchemaDefinition) := do
  let definitions ← Reader.many1 schemaDefinition
  token Reader.atEnd
  return definitions

end Grammar

end QueryMask
