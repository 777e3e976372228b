import QueryMask.Query.Document
import QueryMask.Schema.Basic
import QueryMask.Settings

/-! What is made of texts. Libraries read them; a text that one refuses is refused in its words. -/

namespace QueryMask

/-- What a library reads in a text, or why it refuses the text. -/
abbrev TextReader (α : Type) := String → Except String α

def Schema.read (reader : TextReader (List SchemaDefinition)) (text : String) : Except MaskError Schema :=
  match reader text with
  | .ok definitions => .ok (.ofDefinitions definitions)
  | .error reason => .error (.invalidSchema (.stated reason))

def Document.read (reader : TextReader Document) (text : String) : Except MaskError Document :=
  match reader text with
  | .ok document => .ok document
  | .error reason => .error (.invalidQuery (.stated reason))

/-- Settings must also be usable. -/
def Settings.read (reader : TextReader Settings) (text : String) : Except MaskError Settings :=
  match reader text with
  | .error reason => .error (.invalidSettings (.stated reason))
  | .ok settings =>
    match settings.fault? with
    | some fault => .error (.invalidSettings fault)
    | none => .ok settings

end QueryMask
