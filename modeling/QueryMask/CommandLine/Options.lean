/-! Options in command-line arguments. -/

namespace QueryMask

namespace CommandLine

/-- An option: its long name, its letter, whether a value follows it, and whether nothing after it
counts. -/
structure OptionSpec where
  name : String
  letter? : Option Char
  takesValue : Bool
  isFinal : Bool
  deriving DecidableEq, Repr

/-- The options that were given, with their values; that of a flag is empty. -/
abbrev Given := List (String × String)

/-- What one argument is. An attached value comes with its option. -/
inductive Argument where
  | option (spec : OptionSpec) (attached? : Option String)
  | positional
  | terminator
  | unknown
  deriving DecidableEq, Repr

def attachedToLetter? : List Char → Option String
  | [] => none
  | '=' :: value => some (String.ofList value)
  | value => some (String.ofList value)

def attachedToName? : List Char → Option String
  | [] => none
  | _ :: value => some (String.ofList value)

/-- Recognises an argument. A single dash is no option. -/
def Argument.ofText (specs : List OptionSpec) (text : String) : Argument :=
  match text.toList with
  | ['-', '-'] => terminator
  | '-' :: '-' :: body =>
    let name := String.ofList (body.takeWhile (· != '='))
    match specs.find? (·.name == name) with
    | some spec => option spec (attachedToName? (body.dropWhile (· != '=')))
    | none => unknown
  | '-' :: letter :: tail =>
    match specs.find? (·.letter? == some letter) with
    | some spec => option spec (if spec.takesValue then attachedToLetter? tail else none)
    | none => unknown
  | _ => positional

/-- Whether an argument cannot be the value of the option before it. -/
def looksLikeOption (text : String) : Bool :=
  text.toList.head? == some '-' && text != "-"

/--
Reads options up to the first positional argument, which is left with all that follows it. An option
is given once, and a value that is not attached is the next argument.
-/
def readOptions? (specs : List OptionSpec) (pending? : Option OptionSpec) (given : Given) :
    List String → Option (Given × List String)
  | [] => if pending?.isNone then some (given, []) else none
  | text :: rest =>
    match pending? with
    | some spec =>
      if looksLikeOption text then none
      else readOptions? specs none (given ++ [(spec.name, text)]) rest
    | none =>
      match Argument.ofText specs text with
      | .unknown => none
      | .positional => some (given, text :: rest)
      | .terminator => if rest.isEmpty then some (given, []) else none
      | .option spec attached? =>
        if (given.lookup spec.name).isSome then none
        else match spec.takesValue, attached? with
          | true, some value => readOptions? specs none (given ++ [(spec.name, value)]) rest
          | true, none => readOptions? specs (some spec) given rest
          | false, some _ => none
          | false, none =>
            if spec.isFinal then some (given ++ [(spec.name, "")], [])
            else readOptions? specs none (given ++ [(spec.name, "")]) rest

end CommandLine

end QueryMask
