import QueryMask.Reading
import QueryMask.Toml.Document

/-! A reader of settings in TOML that calls no library. -/

namespace QueryMask

namespace Settings

/-- Reads one entry, or keeps a default if there is none; an entry of another kind is refused. -/
def entryOr? (entries : Toml.Entries) (name : String) (default : α) (read? : Toml.Node → Option α) :
    Option α :=
  match entries.lookup name with
  | none => some default
  | some node => read? node

def text? : Toml.Node → Option String
  | .scalar (.string text) => some text
  | _ => none

def truth? : Toml.Node → Option Bool
  | .scalar (.boolean truth) => some truth
  | _ => none

/-- A choice by its written form: a string, or the one name in a table if it holds nothing. -/
def choice? (ofText? : String → Option α) (node : Toml.Node) : Option α :=
  match node.entries? with
  | some [(name, content)] => if content.isEmpty then ofText? name else none
  | some _ => none
  | none => (text? node).bind ofText?

/-- The settings in a table. Entries with other names do not count. -/
def ofEntries? (entries : Toml.Entries) : Option Settings := do
  let preset : Settings := {}
  let nameDirective ← entryOr? entries "name_directive" preset.nameDirective text?
  let honorNameDirective ← entryOr? entries "honor_name_directive" preset.honorNameDirective truth?
  let abstractTypes ←
    entryOr? entries "abstract_types" preset.abstractTypes (choice? AbstractHandling.ofText?)
  let dedup ← entryOr? entries "dedup" preset.dedup truth?
  return { nameDirective, honorNameDirective, abstractTypes, dedup }

/-- Faults are not told apart, but for the limit on nesting. -/
def textOfFault : Toml.Fault → String
  | .malformed => "<toml error>"
  | .nestingLimit => "recursion limit\n"

def reader : TextReader Settings := fun text =>
  match Toml.Entries.ofText text with
  | .error fault => .error (textOfFault fault)
  | .ok entries => (ofEntries? entries).elim (.error (textOfFault .malformed)) .ok

def ofText : String → Except MaskError Settings := read reader

end Settings

end QueryMask
