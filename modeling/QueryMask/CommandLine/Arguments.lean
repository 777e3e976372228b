import QueryMask.CommandLine.Options
import QueryMask.CommandLine.Program

/-! A reader of arguments that calls no library: the commands that they give. -/

namespace QueryMask

namespace CommandLine

def ListFormat.ofText? : String → Option ListFormat
  | "json" => some json
  | "lines" => some lines
  | _ => none

def handlingOfText? : String → Option AbstractHandling
  | "omit" => some .leaveOut
  | "per-possible-type" => some .perPossibleType
  | _ => none

def valued (name : String) : OptionSpec := ⟨name, none, true, false⟩

/-- The level of the log, an option of the program and of every command. It changes no result. -/
def logLevel : OptionSpec := valued "log-level"

def format : OptionSpec := ⟨"format", some 'f', true, false⟩

def programOptions : List OptionSpec := [logLevel, ⟨"version", some 'V', false, true⟩]

def pathsOptions : List OptionSpec :=
  [valued "schema", valued "query", valued "field", valued "type", valued "operation",
   valued "config", valued "abstract-types", ⟨"dedup", none, false, false⟩, format, logLevel]

def typesOptions : List OptionSpec := [valued "schema", valued "type", format, logLevel]

/-- The options of a command, after which nothing may be left. -/
def commandOptions? (specs : List OptionSpec) (arguments : List String) : Option Given :=
  match readOptions? specs none [] arguments with
  | some (given, []) => some given
  | _ => none

/-- The name of a file, which cannot be empty. -/
def fileName? (text : String) : Option String := if text.isEmpty then none else some text

/-- The value of an option that may be left out, which must be readable. -/
def readIfGiven? (given : Given) (name : String) (read? : String → Option α) :
    Option (Option α) :=
  match given.lookup name with
  | none => some none
  | some text => (read? text).map some

/-- The format that is given, or else JSON. -/
def givenFormat? (given : Given) : Option ListFormat :=
  (readIfGiven? given "format" ListFormat.ofText?).map (·.getD .json)

def PathsCommand.ofArguments? (arguments : List String) : Option PathsCommand := do
  let given ← commandOptions? pathsOptions arguments
  let schema ← (given.lookup "schema").bind fileName?
  let query ← (given.lookup "query").bind fileName?
  let field ← given.lookup "field"
  let type ← given.lookup "type"
  let config? ← readIfGiven? given "config" fileName?
  let abstractTypes? ← readIfGiven? given "abstract-types" handlingOfText?
  let format ← givenFormat? given
  return {
    schema, query, field, type, config?, abstractTypes?, format
    operation? := given.lookup "operation"
    dedup := (given.lookup "dedup").isSome }

def TypesCommand.ofArguments? (arguments : List String) : Option TypesCommand := do
  let given ← commandOptions? typesOptions arguments
  let schema ← (given.lookup "schema").bind fileName?
  let format ← givenFormat? given
  return { schema, format, type? := given.lookup "type" }

def versionText : String := "fieldmask 0.0.1\n"

def refused : Report := ⟨2, "", none⟩

def Command.ofRest? : List String → Option Command
  | "paths" :: rest => (PathsCommand.ofArguments? rest).map paths
  | "types" :: rest => (TypesCommand.ofArguments? rest).map types
  | _ => none

/-- The command that arguments give, unless they ask for the version or are refused. Options that ask for help are not
known. -/
def Command.ofArguments (arguments : List String) : Except Report Command :=
  match readOptions? programOptions none [] arguments with
  | none => .error refused
  | some (given, rest) =>
    if (given.lookup "version").isSome then .error (.printed versionText)
    else (Command.ofRest? rest).elim (.error refused) .ok

end CommandLine

end QueryMask
