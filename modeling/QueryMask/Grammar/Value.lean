import QueryMask.Grammar.BlockString
import QueryMask.Schema.Definition

/-! Reading values, arguments, directives and types. -/

namespace QueryMask

namespace Grammar

def boolean : Reader Bool :=
  (do
    keyword "true"
    return true) <|>
  (do
    keyword "false"
    return false)

/-- An enum value: a name that does not open with a truth value or null. -/
def enumName : Reader Name := do
  Reader.not (boolean <|> (do
    keyword "null"
    return false))
  name

def variableName : Reader Name := do
  symbol '$'
  name

def named (value : Reader α) : Reader (Name × α) := do
  let key ← name
  symbol ':'
  let content ← value
  return (key, content)

/-- A value that is not made of others. Constants have no variables. -/
def simpleValue (constant : Bool) : Reader Value :=
  (if constant then failure else Value.var <$> variableName) <|>
  (Value.number <$> number) <|>
  (Value.string <$> stringLiteral) <|>
  (Value.boolean <$> boolean) <|>
  (do
    keyword "null"
    return Value.null) <|>
  (Value.enum <$> enumName)

def valueLayer (constant : Bool) (inner : Reader Value) : Reader Value :=
  simpleValue constant <|>
  (Value.list <$> between '[' ']' (Reader.many inner)) <|>
  (Value.object <$> between '\x7b' '\x7d' (Reader.many (named inner)))

def value (constant : Bool) : Reader Value := Reader.recursive (valueLayer constant)

def arguments (constant : Bool) : Reader (List Argument) :=
  between '(' ')' (Reader.many1 (named (value constant)))

def directive (constant : Bool) : Reader Directive := do
  symbol '@'
  let key ← name
  let given ← Reader.optional (arguments constant)
  return ⟨key, given.getD []⟩

def directives (constant : Bool) : Reader (List Directive) := Reader.many (directive constant)

def defaultValue : Reader Value := do
  symbol '='
  value true

def nonNull : Reader Bool := Option.isSome <$> Reader.optional (Reader.char '!')

def typeLayer (inner : Reader TypeRef) : Reader TypeRef :=
  (do
    let core ← bareName
    return .named core (← nonNull)) <|>
  (do
    Reader.char '['
    let element ← inner
    Reader.char ']'
    return .list element (← nonNull))

def type : Reader TypeRef := token (Reader.recursive typeLayer)

def operationKind : Reader OperationKind :=
  (do
    keyword "query"
    return .query) <|>
  (do
    keyword "mutation"
    return .mutation) <|>
  (do
    keyword "subscription"
    return .subscription)

end Grammar

end QueryMask
