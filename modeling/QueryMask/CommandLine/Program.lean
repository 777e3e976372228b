import QueryMask.CommandLine.Command
import QueryMask.CommandLine.Files
import QueryMask.Query.ResponsePath
import QueryMask.Reading

/-! What the program does, given the files it reads and the libraries it calls. -/

namespace QueryMask

namespace CommandLine

inductive Failure where
  | unreadable (file : String) (fault : FileFault)
  | settings (file : String) (error : MaskError)
  | schema (file : String) (error : MaskError)
  | mask (error : MaskError)
  | notComposite (type : Name)
  | unknownType (type : Name)
  deriving DecidableEq, Repr

def Failure.message : Failure → String
  | unreadable file fault => "Cannot read " ++ file ++ ": " ++ fault.text
  | settings file error => "Cannot load config " ++ file ++ ": " ++ error.message
  | schema file error => "Cannot load schema " ++ file ++ ": " ++ error.message
  | mask error => error.message
  | notComposite type => type ++ " is not a composite type"
  | unknownType type => "Unknown type: " ++ type

/-- How a run ends: its status, what it prints, and its complaint if it has one. -/
structure Report where
  status : Nat
  output : String
  complaint? : Option String
  deriving DecidableEq, Repr

def Report.printed (output : String) : Report := ⟨0, output, none⟩

/-- What the program leaves to libraries: they read texts and arguments, and write JSON. -/
structure Libraries where
  schema : TextReader (List SchemaDefinition)
  query : TextReader Document
  settings : TextReader Settings
  /-- The command that arguments give, or else how the run ends. -/
  arguments : List String → Except Report Command
  json : List String → String

def ListFormat.print (json : List String → String) : ListFormat → List String → String
  | .json, items => json items ++ "\n"
  | lines, items => String.join (items.map (· ++ "\n"))

def Report.ofList (json : List String → String) (format : ListFormat) : Except Failure (List String) → Report
  | .ok items => printed (format.print json items)
  | .error failure => ⟨1, "", some ("✗ " ++ failure.message)⟩

def readFile (files : Files) (file : String) : Except Failure String :=
  (files file).mapError (.unreadable file)

namespace Libraries

variable (libraries : Libraries) (files : Files)

def loadSchema (file : String) : Except Failure Schema := do
  let text ← readFile files file
  (Schema.read libraries.schema text).mapError (.schema file)

/-- Without a file, the preset ones. -/
def loadSettings : Option String → Except Failure Settings
  | none => .ok {}
  | some file => do
    let text ← readFile files file
    (Settings.read libraries.settings text).mapError (.settings file)

end Libraries

namespace PathsCommand

/-- The settings with what the command sets over them. -/
def adjust (command : PathsCommand) (settings : Settings) : Settings :=
  { settings with
    abstractTypes := command.abstractTypes?.getD settings.abstractTypes
    dedup := settings.dedup || command.dedup }

def paths (command : PathsCommand) (libraries : Libraries) (files : Files) : Except Failure (List Path) := do
  let settings ← libraries.loadSettings files command.config?
  let schema ← libraries.loadSchema files command.schema
  let text ← readFile files command.query
  let document ← (Document.read libraries.query text).mapError .mask
  let selections ← (document.selectionsAt command.operation? command.field).mapError .mask
  ((command.adjust settings).paths schema.typeSystem document.fragments selections
    command.type).mapError .mask

end PathsCommand

def TypesCommand.types (command : TypesCommand) (libraries : Libraries) (files : Files) :
    Except Failure (List Name) := do
  let schema ← libraries.loadSchema files command.schema
  match command.type? with
  | none => return schema.objectTypes
  | some type =>
    match schema.kind? type with
    | none => throw (.unknownType type)
    | some .object => return [type]
    | some kind =>
      if kind.isAbstract then return schema.possibleTypes type else throw (.notComposite type)

def Command.report (libraries : Libraries) (files : Files) : Command → Report
  | paths command => .ofList libraries.json command.format (command.paths libraries files)
  | types command => .ofList libraries.json command.format (command.types libraries files)

def Command.files : Command → List String
  | paths command => command.config?.toList ++ [command.schema, command.query]
  | types command => [command.schema]

def Libraries.run (libraries : Libraries) (files : Files) (arguments : List String) : Report :=
  match libraries.arguments arguments with
  | .ok command => command.report libraries files
  | .error report => report

end CommandLine

end QueryMask
