import QueryMask.Grammar.Value
import QueryMask.Query.Document

/-! Reading query documents. -/

namespace QueryMask

namespace Grammar

/-- A type condition. Blanks follow its keyword, and no comment. -/
def typeCondition : Reader Name := token do
  Reader.word "on".toList
  let _ ← Reader.takeWhile1 isBlank
  bareName

def responseAlias : Reader Name := do
  let key ← name
  symbol ':'
  return key

def field (inner : Reader SelectionSet) : Reader Selection := do
  let alias? ← Reader.optional responseAlias
  let key ← name
  let given ← Reader.optional (arguments false)
  let applied ← directives false
  let selections ← Reader.optional inner
  return .field alias? key (given.getD []) applied (selections.getD [])

def inlineFragment (inner : Reader SelectionSet) : Reader Selection := do
  keyword "..."
  let condition? ← Reader.optional typeCondition
  let applied ← directives false
  let selections ← inner
  return .inline condition? applied selections

/-- A spread of a fragment, whose name is not the start of a type condition. -/
def fragmentSpread : Reader Selection := do
  keyword "..."
  Reader.not typeCondition
  let key ← name
  let applied ← directives false
  return .spread key applied

def selectionLayer (inner : Reader SelectionSet) : Reader SelectionSet :=
  between '\x7b' '\x7d' (Reader.many1 (field inner <|> inlineFragment inner <|> fragmentSpread))

def selectionSet : Reader SelectionSet := Reader.recursive selectionLayer

def variableDefinition : Reader VariableDefinition := do
  let key ← variableName
  symbol ':'
  let declared ← type
  let applied ← directives false
  let default? ← Reader.optional defaultValue
  return ⟨key, declared, applied, default?⟩

def operation : Reader QueryDefinition := do
  let kind ← operationKind
  let name? ← Reader.optional name
  let defined ← Reader.optional (between '(' ')' (Reader.many variableDefinition))
  let applied ← directives false
  let selections ← selectionSet
  return .operation name? ⟨kind, defined.getD [], applied, selections⟩

def shortQuery : Reader QueryDefinition := do
  let selections ← selectionSet
  return .operation none ⟨.query, [], [], selections⟩

def fragmentDefinition : Reader QueryDefinition := do
  keyword "fragment"
  let key ← name
  let condition ← typeCondition
  let applied ← directives false
  let selections ← selectionSet
  return .fragment key ⟨condition, applied, selections⟩

def queryDocument : Reader (List QueryDefinition) := do
  let definitions ← Reader.many1 (operation <|> shortQuery <|> fragmentDefinition)
  token Reader.atEnd
  return definitions

end Grammar

end QueryMask
